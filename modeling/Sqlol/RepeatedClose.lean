/-
Closing twice: `SqliteWal`, `SqliteDataSource` and `WorkerDbPort` instances on
one file, opened and closed in any order, over the steps of `DbOwnerLock`.

All three come to `DbOwnerLock.close` in the end, which deletes the sidecar by
its path. A data source returns from a second `close` at its flag, and so does a
port before it gives its reference back. `SqliteWal.close` has no flag: a second
one deletes whatever sidecar is there by then (`later_owner_lost`). A run whose
second closes of that kind find nobody relying on the path keeps every owner
(`close_again_run_kept`).

The registry of the ports is one for each process. Its monitor is left out, which
only adds runs; no process dies.
-/
import Sqlol.DbOwnerLockFacts
import Mathlib.Data.List.Count

namespace Sqlol

namespace RepeatedClose

open DbOwnerLock (LockKind Pc FreshToken NotLost)

/-- What an `acquire` is for. -/
inductive Holder where
  | wal
  | dataSource
  /-- A runtime of `WorkerDbRuntimes`. -/
  | runtime
  deriving DecidableEq

/-- A runtime is known by its `acquire`. -/
structure FileEntry where
  rt : Nat
  refs : Int := 0

/-- A `SqliteWal` or `SqliteDataSource` is known by its `acquire`; `built` are
those that were returned. Of a `SqliteWal`, `closed` is a note that no step reads.
Ports are numbered as they are returned; `opened` are those whose `closed` is
false, each with its process. -/
structure Sys where
  lock : DbOwnerLock.Sys
  built : Nat → Bool := fun _ => false
  closed : Nat → Bool := fun _ => false
  /-- The registry of each process. -/
  files : Nat → Option FileEntry := fun _ => none
  nextPort : Nat := 0
  opened : List (Nat × Nat) := []

/-- With a sidecar that is there already, or none. -/
def start (sidecar : Option (Option Int)) : Sys := { lock := DbOwnerLock.start sidecar }

/-- `ok` is false when the delete in `DbOwnerLock.close` throws. -/
inductive Label where
  /-- A step of an `acquire`, or of a `DbOwnerLock.close` behind its delete. -/
  | lock (l : DbOwnerLock.Label)
  /-- `openRuntime` throws behind `acquire`. -/
  | fail (c : Nat) (ok : Bool)
  /-- The `SqliteWal` or the `SqliteDataSource` is returned. -/
  | build (c : Nat)
  /-- `openFile` puts a new runtime into the registry; `spawned` is false when the worker's spawn throws. -/
  | firstPort (c : Nat) (spawned ok : Bool)
  /-- `openFile` finds one there. -/
  | joinPort (q : Nat) (spawned ok : Bool)
  | closeWal (c : Nat) (ok : Bool)
  | closeDataSource (c : Nat) (ok : Bool)
  | closePort (q p : Nat) (ok : Bool)

/-- The steps that belong to no `close` of an instance. -/
def inner : DbOwnerLock.Label → Bool
  | .delete .. | .closeAgain .. | .crash _ => false
  | _ => true

section
variable (kind : LockKind) (proc : Nat → Nat) (holder : Nat → Holder)

namespace Sys

/-- `ownerLock.close()`, as far as its delete; the second one deletes too. -/
def closeLock (s : Sys) (c : Nat) (ok : Bool) : Option Sys :=
  match s.lock.pc c with
  | .owner _ => (DbOwnerLock.step kind proc s.lock (.delete c ok)).map fun lock => { s with lock }
  | _ => (DbOwnerLock.step kind proc s.lock (.closeAgain c ok)).map fun lock => { s with lock }

/-- What a process's registry has for the file. -/
def setFile (s : Sys) (q : Nat) (e : Option FileEntry) : Sys := { s with files := Function.update s.files q e }

/-- `releaseFile` of a process's registry. -/
def releaseFile (s : Sys) (q : Nat) (ok : Bool) : Option Sys :=
  match s.files q with
  | none => some s
  | some e =>
    if e.refs - 1 ≤ 0 then (s.setFile q none).closeLock kind proc e.rt ok
    else some (s.setFile q (some { e with refs := e.refs - 1 }))

/-- `openFile`, from `entry.refs++` on. -/
def spawn (s : Sys) (q : Nat) (e : FileEntry) (spawned ok : Bool) : Option Sys :=
  let s := s.setFile q (some { e with refs := e.refs + 1 })
  if spawned then some { s with nextPort := s.nextPort + 1, opened := (q, s.nextPort) :: s.opened }
  else s.releaseFile kind proc q ok

end Sys

/-- One step; none where it is not the next one. -/
def step (s : Sys) : Label → Option Sys
  | .lock l => if inner l then (DbOwnerLock.step kind proc s.lock l).map fun lock => { s with lock } else none
  | .fail c ok => match s.lock.pc c, s.built c with
    | .owner _, false => s.closeLock kind proc c ok
    | _, _ => none
  | .build c => match s.lock.pc c, s.built c with
    | .owner _, false =>
      if holder c = .runtime then none else some { s with built := Function.update s.built c true }
    | _, _ => none
  | .firstPort c spawned ok => match s.lock.pc c, s.built c, s.files (proc c) with
    | .owner _, false, none =>
      if holder c = .runtime then
        { s with built := Function.update s.built c true }.spawn kind proc (proc c) { rt := c } spawned ok
      else none
    | _, _, _ => none
  | .joinPort q spawned ok => match s.files q with
    | some e => s.spawn kind proc q e spawned ok
    | none => none
  | .closeWal c ok =>
    if s.built c ∧ holder c = .wal then
      { s with closed := Function.update s.closed c true }.closeLock kind proc c ok
    else none
  | .closeDataSource c ok =>
    if s.built c ∧ holder c = .dataSource then
      if s.closed c then some s
      else { s with closed := Function.update s.closed c true }.closeLock kind proc c ok
    else none
  | .closePort q p ok =>
    if (q, p) ∈ s.opened then { s with opened := s.opened.erase (q, p) }.releaseFile kind proc q ok
    else if p < s.nextPort then some s
    else none

end

/-! ## What is claimed -/

/-- Whatever is open owns the file: its lock is held, on the inode that the
path names. And there is one owner. -/
structure Kept (holder : Nat → Holder) (s : Sys) : Prop where
  instances : ∀ c, holder c ≠ .runtime → s.built c = true → s.closed c = false → ∃ i, s.lock.pc c = .owner i
  ports : ∀ q p, (q, p) ∈ s.opened → ∃ e i, s.files q = some e ∧ s.lock.pc e.rt = .owner i
  holds : ∀ c i, s.lock.pc c = .owner i → s.lock.path = some i ∧ (i, c) ∈ s.lock.fileLocks
  unique : ∀ c d i j, s.lock.pc c = .owner i → s.lock.pc d = .owner j → c = d

/-- The inode a call has found behind the path, or will find when it looks at what it has read. -/
def relies : Pc → Option Nat
  | .owner i => some i
  | .reopened _ i _ j => if j = i then some i else none
  | .readBack _ i token _ seen | .checked _ i token seen => if seen = some token then some i else none
  | _ => none

/-- A `SqliteWal` that is closed again deletes no sidecar that somebody relies
on. Besides, what `DbOwnerLock` itself rests on. -/
def Spared (proc : Nat → Nat) (s : Sys) : Label → Prop
  | .lock l => FreshToken s.lock l ∧ NotLost proc s.lock l
  | .closeWal c ok => s.closed c = true → ok = true → ∀ l ∈ s.lock.fileLocks, relies (s.lock.pc l.2) ≠ some l.1
  | .fail .. | .build _ | .firstPort .. | .joinPort .. | .closeDataSource .. | .closePort .. => True

instance (proc : Nat → Nat) (s : Sys) : ∀ l, Decidable (Spared proc s l)
  | .lock l => inferInstanceAs (Decidable (FreshToken s.lock l ∧ NotLost proc s.lock l))
  | .closeWal c ok => inferInstanceAs (Decidable (s.closed c = true → ok = true → ∀ l ∈ s.lock.fileLocks,
      relies (s.lock.pc l.2) ≠ some l.1))
  | .fail .. | .build _ | .firstPort .. | .joinPort .. | .closeDataSource .. | .closePort .. =>
    inferInstanceAs (Decidable True)

/-! ## The steps of a lock -/

/-- `close` has begun. -/
def shut : Pc → Bool
  | .deleted _ | .released _ | .closed => true
  | _ => false

section
variable {kind : LockKind} {proc : Nat → Nat} {t t' : DbOwnerLock.Sys}

/-- One call moves, which is no owner, and not out of its `close`. -/
structure Moves (t t' : DbOwnerLock.Sys) (d : Nat) : Prop where
  other : ∀ c, c ≠ d → t'.pc c = t.pc c
  notOwner : ∀ i, t.pc d ≠ .owner i
  shut : shut (t.pc d) = true → shut (t'.pc d) = true

theorem Moves.of_update {d : Nat} {p : Pc} (hpc : t'.pc = Function.update t.pc d p)
    (howner : ∀ i, t.pc d ≠ .owner i) (hshut : RepeatedClose.shut (t.pc d) = true → RepeatedClose.shut p = true) :
    Moves t t' d where
  other c hc := by rw [hpc, Function.update_of_ne hc]
  notOwner := howner
  shut h := by rw [hpc, Function.update_self]; exact hshut h

theorem create_pc : t.create.1.pc = t.pc := by
  simp only [DbOwnerLock.Sys.create]
  split <;> rfl

theorem inner_moves {l : DbOwnerLock.Label} (hl : inner l = true) (h : DbOwnerLock.step kind proc t l = some t') :
    ∃ d, Moves t t' d := by
  cases l with
  | delete c ok | closeAgain c ok | crash p => cases hl
  | call c | read c ok | closeRead c ok | decide c | giveUp c | reap c =>
    simp only [DbOwnerLock.step] at h
    split at h <;> cases h
    next hpc => exact ⟨c, .of_update rfl (by simp [hpc]) (by simp [hpc, shut])⟩
  | release c ok | closeChannel c ok =>
    simp only [DbOwnerLock.step] at h
    split at h <;> cases h
    next hpc => exact ⟨c, .of_update (by cases ok <;> rfl) (by simp [hpc]) (by simp [hpc, shut])⟩
  | unlock c ok | closeOwned c ok =>
    simp only [DbOwnerLock.step] at h
    split at h <;> cases h
    next hpc => exact ⟨c, .of_update (by cases ok <;> rfl) (by simp [hpc]) fun _ => rfl⟩
  | «open» c ok =>
    simp only [DbOwnerLock.step] at h
    split at h
    · next left hpc =>
      split at h <;> cases h
      · refine ⟨c, .of_update (p := .opened left t.create.2) ?_ (by simp [hpc]) (by simp [hpc, shut])⟩
        exact congrArg (Function.update · c _) create_pc
      · exact ⟨c, .of_update rfl (by simp [hpc]) (by simp [hpc, shut])⟩
    · cases h
  | closeRefused c ok | write c token ok | force c ok =>
    simp only [DbOwnerLock.step] at h
    split at h
    · next hpc =>
      split at h <;> cases h
      all_goals exact ⟨c, .of_update rfl (by simp [hpc]) (by simp [hpc, shut])⟩
    · cases h
  | tryLock c ok =>
    simp only [DbOwnerLock.step] at h
    split at h
    · next hpc =>
      split at h
      · cases h
        exact ⟨c, .of_update rfl (by simp [hpc]) (by simp [hpc, shut])⟩
      · split at h <;> cases h
        all_goals exact ⟨c, .of_update rfl (by simp [hpc]) (by simp [hpc, shut])⟩
    · cases h
  | reopen c ok =>
    simp only [DbOwnerLock.step] at h
    split at h
    · next hpc =>
      split at h
      · split at h <;> cases h
        all_goals exact ⟨c, .of_update rfl (by simp [hpc]) (by simp [hpc, shut])⟩
      · cases h
        exact ⟨c, .of_update rfl (by simp [hpc]) (by simp [hpc, shut])⟩
    · cases h

/-- The path goes, and nobody relied on it. -/
theorem deleted_again (hi : DbOwnerLock.Inv t) (hfree : ∀ l ∈ t.fileLocks, relies (t.pc l.2) ≠ some l.1) :
    DbOwnerLock.Inv { t with path := none } where
  path_last _ h := by cases h
  excl := hi.excl
  held := hi.held
  inode_lt := hi.inode_lt
  token := hi.token
  drawn_inj := hi.drawn_inj
  content_drawn := hi.content_drawn
  content_lt := hi.content_lt
  content_le := hi.content_le
  verified c := by
    have hnone : ∀ i, (t.pc c).held = some i → relies (t.pc c) ≠ some i := fun i hc => hfree (i, c) (hi.held c i hc)
    have hver := hi.verified c
    revert hnone hver
    cases t.pc c with
    | reopened left i token j =>
      intro hnone hver
      exact ⟨hver.1, fun hj => absurd (if_pos hj) (hnone i rfl)⟩
    | readBack left i token j seen =>
      intro hnone _ hseen
      exact absurd (if_pos hseen) (hnone i rfl)
    | checked left i token seen =>
      intro hnone _ hseen
      exact absurd (if_pos hseen) (hnone i rfl)
    | owner i =>
      intro hnone _
      exact absurd rfl (hnone i rfl)
    | _ => intros; trivial

end

/-! ## The invariant -/

/-- The ports that are open in a process. -/
def count (s : Sys) (q : Nat) : Nat := s.opened.countP fun p => p.1 = q

/-- The count of an entry, 0 when there is none. -/
def refsOf : Option FileEntry → Int
  | none => 0
  | some e => e.refs

/-- What is built and not closed owns its sidecar, and the registry counts its ports. -/
structure Inv (proc : Nat → Nat) (holder : Nat → Holder) (s : Sys) : Prop where
  lock : DbOwnerLock.Inv s.lock
  instances : ∀ c, holder c ≠ .runtime → s.built c = true → s.closed c = false → ∃ i, s.lock.pc c = .owner i
  shut : ∀ c, s.closed c = true → shut (s.lock.pc c) = true
  entry : ∀ q e, s.files q = some e →
    holder e.rt = .runtime ∧ proc e.rt = q ∧ s.built e.rt = true ∧ ∃ i, s.lock.pc e.rt = .owner i
  refs : ∀ q, refsOf (s.files q) = count s q

section
variable {kind : LockKind} {proc : Nat → Nat} {holder : Nat → Holder} {s s' : Sys}

theorem inv_start (sidecar : Option (Option Int)) : Inv proc holder (start sidecar) where
  lock := DbOwnerLock.inv_start sidecar
  instances _ _ h := by cases h
  shut _ h := by cases h
  entry _ _ h := by cases h
  refs _ := rfl

theorem Inv.kept (hi : Inv proc holder s) : Kept holder s where
  instances := hi.instances
  ports q p hp := by
    have hpos : 0 < count s q := List.countP_pos_iff.mpr ⟨(q, p), hp, by simp⟩
    have hrefs := hi.refs q
    cases hf : s.files q with
    | none => rw [hf] at hrefs; simp only [refsOf] at hrefs; omega
    | some e =>
      obtain ⟨-, -, -, i, hown⟩ := hi.entry q e hf
      exact ⟨e, i, rfl, hown⟩
  holds c i hc := ⟨hi.lock.owner_path hc, hi.lock.held c i (by rw [hc]; rfl)⟩
  unique _ _ _ _ hc hd := hi.lock.owner_inj hc hd

/-- A step of an `acquire`, or of the rest of a `close`. -/
theorem Inv.inner (hi : Inv proc holder s) {l : DbOwnerLock.Label} (hl : inner l = true)
    (hok : FreshToken s.lock l ∧ NotLost proc s.lock l) {t : DbOwnerLock.Sys}
    (h : DbOwnerLock.step kind proc s.lock l = some t) : Inv proc holder { s with lock := t } := by
  obtain ⟨d, hm⟩ := inner_moves hl h
  have howner : ∀ c i, s.lock.pc c = .owner i → t.pc c = .owner i := by
    intro c i hc
    have hne : c ≠ d := by
      rintro rfl
      exact hm.notOwner i hc
    rw [hm.other c hne, hc]
  refine ⟨hi.lock.step hok.1 ?_ hok.2.excludes h, fun c hr hb hc => ?_, fun c hc => ?_, fun q e he => ?_, hi.refs⟩
  · cases l <;> first | rfl | cases hl
  · obtain ⟨i, hown⟩ := hi.instances c hr hb hc
    exact ⟨i, howner c i hown⟩
  · rcases eq_or_ne c d with rfl | hne
    · exact hm.shut (hi.shut c hc)
    · rw [show t.pc c = _ from hm.other c hne]
      exact hi.shut c hc
  · obtain ⟨hh, hp, hb, i, hown⟩ := hi.entry q e he
    exact ⟨hh, hp, hb, i, howner _ i hown⟩

/-- The one close of a lock that is its first, of an instance that is open in
`s` and noted as closed in `s₁`. -/
theorem Inv.closeFirst (hi : Inv proc holder s) (s₁ : Sys) {c i : Nat} {ok : Bool} (hpc : s.lock.pc c = .owner i)
    (hlock : s₁.lock = s.lock)
    (hbuilt : ∀ d, d ≠ c → s₁.built d = s.built d) (hclosed : ∀ d, d ≠ c → s₁.closed d = s.closed d)
    (hself : holder c ≠ .runtime → s₁.built c = true → s₁.closed c = true)
    (hentry : ∀ q e, s₁.files q = some e → s.files q = some e ∧ e.rt ≠ c)
    (hrefs : ∀ q, refsOf (s₁.files q) = count s₁ q) (h : s₁.closeLock kind proc c ok = some s') :
    Inv proc holder s' := by
  have hpc₁ : s₁.lock.pc c = .owner i := by rw [hlock, hpc]
  simp only [Sys.closeLock, hpc₁, Option.map_eq_some_iff] at h
  obtain ⟨t, ht, rfl⟩ := h
  have hlockInv : DbOwnerLock.Inv t := by
    rw [hlock] at ht
    exact hi.lock.step (l := .delete c ok) trivial rfl trivial ht
  have htpc : t.pc = Function.update s.lock.pc c (.deleted i) := by
    simp only [DbOwnerLock.step, hpc₁] at ht
    cases ht
    rw [← hlock]
    cases ok <;> rfl
  have other : ∀ d, d ≠ c → t.pc d = s.lock.pc d := fun d hd => by rw [htpc, Function.update_of_ne hd]
  refine ⟨hlockInv, fun d hr hb hcl => ?_, fun d hcl => ?_, fun q e he => ?_, hrefs⟩
  · have hne : d ≠ c := by
      rintro rfl
      rw [hself hr hb] at hcl
      cases hcl
    simp only [other d hne]
    exact hi.instances d hr (by rw [← hbuilt d hne]; exact hb) (by rw [← hclosed d hne]; exact hcl)
  · rcases eq_or_ne d c with rfl | hne
    · simp only [htpc, Function.update_self]
      rfl
    · simp only [other d hne]
      exact hi.shut d (by rw [← hclosed d hne]; exact hcl)
  · obtain ⟨hold, hne⟩ := hentry q e he
    obtain ⟨hh, hp, hb, hown⟩ := hi.entry q e hold
    refine ⟨hh, hp, by rw [show s₁.built e.rt = _ from hbuilt _ hne]; exact hb, ?_⟩
    simp only [other _ hne]
    exact hown

/-! ## Ports -/

/-- A reference is given back that `s` counts; `s₁` is `s` without its port. -/
theorem Inv.releaseFile (hi : Inv proc holder s) (s₁ : Sys) {q : Nat} {e : FileEntry} {ok : Bool}
    (he : s.files q = some e) (hlock : s₁.lock = s.lock) (hbuilt : s₁.built = s.built) (hclosed : s₁.closed = s.closed)
    (hfiles : ∀ r, r ≠ q → s₁.files r = s.files r) {refs : Int} (hq : s₁.files q = some { e with refs })
    (hrefs : refs = count s₁ q + 1) (hcount : ∀ r, r ≠ q → count s₁ r = count s r)
    (h : s₁.releaseFile kind proc q ok = some s') : Inv proc holder s' := by
  obtain ⟨hruntime, hproc, hb, i, hown⟩ := hi.entry q e he
  have hothers : ∀ (e' : Option FileEntry) r, r ≠ q → (s₁.setFile q e').files r = s.files r := fun e' r hr => by
    rw [← hfiles r hr]
    exact Function.update_of_ne hr ..
  have hself : ∀ e' : Option FileEntry, (s₁.setFile q e').files q = e' := fun e' => Function.update_self ..
  have hcounted : ∀ e' : Option FileEntry, refsOf e' = count s₁ q →
      ∀ r, refsOf ((s₁.setFile q e').files r) = count (s₁.setFile q e') r := by
    intro e' he' r
    rcases eq_or_ne r q with rfl | hne
    · rw [hself, he']
      rfl
    · rw [hothers e' r hne, hi.refs r, ← hcount r hne]
      rfl
  simp only [Sys.releaseFile, hq] at h
  split at h
  · next hlast =>
    refine hi.closeFirst (s₁.setFile q none) hown hlock (fun d _ => congrFun hbuilt d) (fun d _ => congrFun hclosed d)
      (fun hne => absurd hruntime hne) (fun r e' he' => ?_) (hcounted none ?_) h
    · rcases eq_or_ne r q with rfl | hne
      · rw [hself] at he'
        cases he'
      · rw [hothers none r hne] at he'
        refine ⟨he', fun hrt => hne ?_⟩
        rw [← (hi.entry r e' he').2.1, hrt, hproc]
    · simp only [refsOf]
      omega
  · cases h
    refine ⟨hlock ▸ hi.lock, fun c hr hbc hcl => ?_, fun c hcl => ?_, fun r e' he' => ?_, hcounted _ ?_⟩
    · simp only [Sys.setFile, hlock, hbuilt, hclosed] at hbc hcl ⊢
      exact hi.instances c hr hbc hcl
    · simp only [Sys.setFile, hlock, hclosed] at hcl ⊢
      exact hi.shut c hcl
    · simp only [show (s₁.setFile q _).lock = s.lock from hlock, show (s₁.setFile q _).built = s.built from hbuilt]
      rcases eq_or_ne r q with rfl | hne
      · rw [hself] at he'
        cases he'
        exact ⟨hruntime, hproc, hb, i, hown⟩
      · rw [hothers _ r hne] at he'
        exact hi.entry r e' he'
    · simp only [refsOf]
      omega

/-- From `entry.refs++` on: the new port is counted, or the reference given back at once. -/
theorem Inv.spawn (hi : Inv proc holder s) {q : Nat} {e : FileEntry} {spawned ok : Bool} (he : s.files q = some e)
    (h : s.spawn kind proc q e spawned ok = some s') : Inv proc holder s' := by
  have hrefs : e.refs = count s q := by
    have hrefs := hi.refs q
    rwa [he] at hrefs
  have hself : (s.setFile q (some { e with refs := e.refs + 1 })).files q = some { e with refs := e.refs + 1 } :=
    Function.update_self ..
  have hothers : ∀ r, r ≠ q → (s.setFile q (some { e with refs := e.refs + 1 })).files r = s.files r :=
    fun r hr => Function.update_of_ne hr ..
  simp only [Sys.spawn] at h
  split at h
  · cases h
    refine ⟨hi.lock, hi.instances, hi.shut, fun r e' he' => ?_, fun r => ?_⟩
    · rcases eq_or_ne r q with rfl | hne
      · rw [show Sys.files _ r = _ from hself] at he'
        cases he'
        exact hi.entry r e he
      · rw [show Sys.files _ r = _ from hothers r hne] at he'
        exact hi.entry r e' he'
    · rcases eq_or_ne r q with rfl | hne
      · rw [show Sys.files _ r = _ from hself]
        simp only [refsOf, count, List.countP_cons, decide_true, if_true]
        rw [hrefs]
        rfl
      · rw [show Sys.files _ r = _ from hothers r hne, hi.refs r]
        simp [count, hne.symm, Sys.setFile]
  · refine hi.releaseFile (s.setFile q _) he rfl rfl rfl hothers hself ?_ (fun _ _ => rfl) h
    rw [hrefs]
    rfl

/-- A new runtime is put into a registry that has none. -/
theorem Inv.arrive (hi : Inv proc holder s) {c i : Nat} (hpc : s.lock.pc c = .owner i) (hnew : s.built c = false)
    (hruntime : holder c = .runtime) (hnone : s.files (proc c) = none) :
    Inv proc holder ({ s with built := Function.update s.built c true }.setFile (proc c) (some { rt := c })) where
  lock := hi.lock
  instances d hr hb hcl := by
    have hne : d ≠ c := by
      rintro rfl
      exact hr hruntime
    simp only [Sys.setFile, Function.update_of_ne hne] at hb
    exact hi.instances d hr hb hcl
  shut := hi.shut
  entry q e he := by
    simp only [Sys.setFile] at he ⊢
    rcases eq_or_ne q (proc c) with rfl | hne
    · rw [Function.update_self] at he
      cases he
      exact ⟨hruntime, rfl, Function.update_self .., i, hpc⟩
    · rw [Function.update_of_ne hne] at he
      obtain ⟨hh, hp, hb, hown⟩ := hi.entry q e he
      have hrt : e.rt ≠ c := by
        intro hrt
        rw [hrt, hnew] at hb
        cases hb
      exact ⟨hh, hp, by rwa [Function.update_of_ne hrt], hown⟩
  refs q := by
    simp only [Sys.setFile]
    rcases eq_or_ne q (proc c) with rfl | hne
    · have hrefs := hi.refs (proc c)
      rw [hnone] at hrefs
      rw [Function.update_self]
      exact hrefs
    · rw [Function.update_of_ne hne]
      exact hi.refs q

theorem spawn_setFile (q : Nat) (e : FileEntry) (spawned ok : Bool) :
    (s.setFile q (some e)).spawn kind proc q e spawned ok = s.spawn kind proc q e spawned ok := by
  simp only [Sys.spawn, Sys.setFile, Function.update_idem]

theorem Inv.closePort (hi : Inv proc holder s) {q p : Nat} {ok : Bool} (hp : (q, p) ∈ s.opened)
    (h : { s with opened := s.opened.erase (q, p) }.releaseFile kind proc q ok = some s') : Inv proc holder s' := by
  have hcount : count { s with opened := s.opened.erase (q, p) } q + 1 = count s q := by
    have hpos : 0 < count s q := List.countP_pos_iff.mpr ⟨(q, p), hp, by simp⟩
    simp only [count, List.countP_erase, hp, decide_true, and_self, if_true] at hpos ⊢
    omega
  obtain ⟨e, i, he, -⟩ := hi.kept.ports q p hp
  refine hi.releaseFile { s with opened := s.opened.erase (q, p) } he rfl rfl rfl (fun _ _ => rfl) he ?_
    (fun r hr => ?_) h
  · have hrefs := hi.refs q
    rw [he] at hrefs
    simp only [refsOf] at hrefs
    omega
  · simp [count, List.countP_erase, hr.symm]

/-! ## The run -/

/-- The first `close` of a `SqliteWal` or a `SqliteDataSource`. -/
theorem Inv.closeInstance (hi : Inv proc holder s) {c : Nat} {ok : Bool} (hr : holder c ≠ .runtime)
    (hb : s.built c = true) (hcl : s.closed c = false)
    (h : { s with closed := Function.update s.closed c true }.closeLock kind proc c ok = some s') :
    Inv proc holder s' := by
  obtain ⟨i, hown⟩ := hi.instances c hr hb hcl
  refine hi.closeFirst { s with closed := Function.update s.closed c true } hown rfl (fun _ _ => rfl)
    (fun d hd => Function.update_of_ne hd ..) (fun _ _ => Function.update_self ..) (fun q e he => ⟨he, ?_⟩) hi.refs h
  rintro rfl
  exact hr (hi.entry q e he).1

/-- A later `close` of a `SqliteWal`. -/
theorem Inv.closeAgain (hi : Inv proc holder s) {c : Nat} {ok : Bool} (hcl : s.closed c = true)
    (hfree : ok = true → ∀ l ∈ s.lock.fileLocks, relies (s.lock.pc l.2) ≠ some l.1)
    (h : { s with closed := Function.update s.closed c true }.closeLock kind proc c ok = some s') :
    Inv proc holder s' := by
  have hsame : ({ s with closed := Function.update s.closed c true } : Sys) = s := by
    rw [← hcl, Function.update_eq_self]
  have hstep : DbOwnerLock.step kind proc s.lock (.closeAgain c ok) =
      some (if ok then { s.lock with path := none } else s.lock) := by
    have hshut := hi.shut c hcl
    simp only [DbOwnerLock.step]
    cases hpc : s.lock.pc c <;> first | rfl | (rw [hpc] at hshut; cases hshut)
  have hs' : s' = { s with lock := if ok then { s.lock with path := none } else s.lock } := by
    have hshut := hi.shut c hcl
    rw [hsame] at h
    simp only [Sys.closeLock, hstep] at h
    split at h
    · next hpc => rw [hpc] at hshut; cases hshut
    · exact (Option.some.inj h).symm
  subst hs'
  cases ok with
  | false => exact hi
  | true =>
    exact ⟨deleted_again hi.lock (hfree rfl), hi.instances, hi.shut, hi.entry, hi.refs⟩

theorem Inv.step {l : Label} (hi : Inv proc holder s) (hsp : Spared proc s l)
    (h : step kind proc holder s l = some s') : Inv proc holder s' := by
  cases l with
  | lock l =>
    simp only [RepeatedClose.step] at h
    split at h
    · next hl =>
      obtain ⟨t, ht, rfl⟩ := Option.map_eq_some_iff.mp h
      exact hi.inner hl hsp ht
    · cases h
  | fail c ok =>
    simp only [RepeatedClose.step] at h
    split at h
    · next i hpc hnew =>
      refine hi.closeFirst s hpc rfl (fun _ _ => rfl) (fun _ _ => rfl) (fun _ hb => ?_) (fun q e he => ⟨he, ?_⟩)
        hi.refs h
      · rw [hnew] at hb
        cases hb
      · rintro rfl
        rw [(hi.entry q e he).2.2.1] at hnew
        cases hnew
    · cases h
  | build c =>
    simp only [RepeatedClose.step] at h
    split at h
    · next i hpc hnew =>
      split at h <;> cases h
      refine ⟨hi.lock, fun d hr hb hcl => ?_, hi.shut, fun q e he => ?_, hi.refs⟩
      · rcases eq_or_ne d c with rfl | hne
        · exact ⟨i, hpc⟩
        · simp only [Function.update_of_ne hne] at hb
          exact hi.instances d hr hb hcl
      · obtain ⟨hh, hp, hb, hown⟩ := hi.entry q e he
        refine ⟨hh, hp, ?_, hown⟩
        rcases eq_or_ne e.rt c with hrt | hne
        · rw [hrt]; exact Function.update_self ..
        · simpa only [Function.update_of_ne hne] using hb
    · cases h
  | firstPort c spawned ok =>
    simp only [RepeatedClose.step] at h
    split at h
    · next i hpc hnew hnone =>
      split at h
      · next hruntime =>
        rw [← spawn_setFile] at h
        exact (hi.arrive hpc hnew hruntime hnone).spawn (Function.update_self ..) h
      · cases h
    · cases h
  | joinPort q spawned ok =>
    simp only [RepeatedClose.step] at h
    split at h
    · next e he => exact hi.spawn he h
    · cases h
  | closeWal c ok =>
    simp only [RepeatedClose.step] at h
    split at h
    · next hw =>
      cases hcl : s.closed c with
      | false => exact hi.closeInstance (by rw [hw.2]; simp) hw.1 hcl h
      | true => exact hi.closeAgain hcl (hsp hcl) h
    · cases h
  | closeDataSource c ok =>
    simp only [RepeatedClose.step] at h
    split at h
    · next hd =>
      split at h
      · cases h
        exact hi
      · next hcl => exact hi.closeInstance (by rw [hd.2]; simp) hd.1 (by simpa using hcl) h
    · cases h
  | closePort q p ok =>
    simp only [RepeatedClose.step] at h
    split at h
    · next hp => exact hi.closePort hp h
    · split at h <;> cases h
      exact hi

end

/-- **Closing again harms nobody** whose sidecar a `SqliteWal` that is closed
again does not find behind the path: over every run of instances of the three
kinds on one file, in any processes, with any kind of lock. -/
theorem close_again_run_kept (kind : LockKind) (proc : Nat → Nat) (holder : Nat → Holder)
    (sidecar : Option (Option Int)) (labels : List Label)
    (h : EveryStep (step kind proc holder) (Spared proc) (start sidecar) labels) :
    EveryState (step kind proc holder) (Kept holder) (start sidecar) labels :=
  everyState_of_invariant (fun _ _ _ hi hsp hs => hi.step hsp hs) (fun _ hi => hi.kept) (inv_start sidecar) h

/-- A `SqliteWal` or a `SqliteDataSource` is opened. -/
def opens (c : Nat) (token : Int) : List Label := (DbOwnerLock.acquires c token).map .lock ++ [.build c]

/-- The rest of a `DbOwnerLock.close`. -/
def unlocks (c : Nat) : List Label := [.lock (.unlock c true), .lock (.closeOwned c true)]

/-- Call 2 is for a runtime, calls 1 and 3 are for data sources, the others for a `SqliteWal`. -/
def mixed (c : Nat) : Holder := if c = 2 then .runtime else if c % 2 = 1 then .dataSource else .wal

/-- One of each kind in turn, closed twice and more: the `SqliteWal` before the others
are there, the data source and the first of two ports while somebody else owns the file. -/
def closedAgain : List Label :=
  opens 0 7 ++ [.closeWal 0 true] ++ unlocks 0 ++ [.closeWal 0 true] ++ opens 1 8 ++ [.closeDataSource 1 true] ++
    unlocks 1 ++ (DbOwnerLock.acquires 2 9).map .lock ++ [.firstPort 2 true true, .closeDataSource 1 true,
    .joinPort 0 true true, .closePort 0 0 true, .closePort 0 0 true]

theorem close_again_run_kept_mixed :
    (run (step .process (fun _ => 0) mixed) (start none) closedAgain).map
      (fun s => (s.lock.pc 2, s.lock.path, s.opened)) = some (.owner 2, some 2, [(0, 1)]) ∧
    EveryState (step .process (fun _ => 0) mixed) (Kept mixed) (start none) closedAgain :=
  ⟨by decide +kernel, close_again_run_kept .process (fun _ => 0) mixed none closedAgain (by decide +kernel)⟩

/-- A `SqliteWal` is closed, a second one opened, and the first closed again:
a third one finds no sidecar and owns the file beside the second. -/
theorem later_owner_lost :
    ¬ EveryState (step .process (fun _ => 0) (fun _ => .wal)) (Kept fun _ => .wal) (start none)
      (opens 0 7 ++ [.closeWal 0 true] ++ unlocks 0 ++ opens 1 8 ++ [.closeWal 0 true] ++ opens 2 9) := by
  intro hall
  have hend : (run (step .process (fun _ => 0) (fun _ => .wal)) (start none)
      (opens 0 7 ++ [.closeWal 0 true] ++ unlocks 0 ++ opens 1 8 ++ [.closeWal 0 true] ++ opens 2 9)).map
        (fun s => (s.lock.pc 1, s.lock.pc 2)) = some (.owner 1, .owner 2) := by decide +kernel
  obtain ⟨s, hs, he⟩ := Option.map_eq_some_iff.mp hend
  simp only [Prod.mk.injEq] at he
  exact absurd ((hall.last hs).unique 1 2 1 2 he.1 he.2) (by decide)

end RepeatedClose

end Sqlol

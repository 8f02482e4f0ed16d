/-
The file locks against the header's contract of `xLock` and `xUnlock`
(`sqlite3.h`): calls in any order and from any level, `PENDING` included, and
not only those the pager makes.

`lock` meets it from every table. `unlock` stores the level it is given, so it
meets it exactly where the call is no request upwards: from `NONE`, an unlock to
`SHARED` takes a lock, beside whoever holds `EXCLUSIVE` (`unlock_grants`).
-/
import Sqlol.FileLevels

namespace Sqlol

namespace JvmVfsLocks

/-! ## Entries -/

/-- A connection's entry on a file. -/
def entry (t : JvmVfsLocks) (name : String) (conn : Int) : Option Int :=
  (t.files.lookup name).bind (·.levels.lookup conn)

theorem level_eq_entry (t : JvmVfsLocks) (name : String) (conn : Int) :
    t.level name conn = (t.entry name conn).getD NONE := rfl

theorem fileState_entry (t : JvmVfsLocks) (name m : String) (c : Int) :
    (t.fileState name).1.entry m c = t.entry m c := by
  by_cases hm : m = name
  · subst hm
    cases h : t.files.lookup m with
    | some st => rw [fileState_fst, Table.getOrPut_fst_of_some h]
    | none => simp [entry, fileState_fst, Table.getOrPut, h]
  · simp only [entry, fileState_lookup_ne t hm]

theorem fileState_levels (t : JvmVfsLocks) (name : String) (c : Int) :
    (t.fileState name).2.levels.lookup c = t.entry name c := by
  rw [fileState_snd, entry]
  cases t.files.lookup name <;> simp

/-- A file's levels written anew. -/
theorem entry_setLevels (t : JvmVfsLocks) (name m : String) (ls : Table Int Int) (c : Int) :
    ((t.fileState name).1.setLevels name ls).entry m c = if m = name then ls.lookup c else t.entry m c := by
  by_cases hm : m = name
  · subst hm
    simp [entry, setLevels]
  · rw [if_neg hm, ← fileState_entry t name m c]
    simp only [entry, setLevels_lookup_ne _ _ hm]

theorem entry_insert (t : JvmVfsLocks) (name m : String) (conn c target : Int) :
    ((t.fileState name).1.setLevels name ((t.fileState name).2.levels.insert conn target)).entry m c =
      if m = name ∧ c = conn then some target else t.entry m c := by
  rw [entry_setLevels, Table.lookup_insert, fileState_levels]
  by_cases hm : m = name
  · subst hm; simp
  · simp [hm]

theorem entry_erase (t : JvmVfsLocks) (name m : String) (conn c : Int) :
    ((t.fileState name).1.setLevels name ((t.fileState name).2.levels.erase conn)).entry m c =
      if m = name ∧ c = conn then none else t.entry m c := by
  rw [entry_setLevels, Table.lookup_erase, fileState_levels]
  by_cases hm : m = name
  · subst hm; simp
  · simp [hm]

/-- What `lock` does to the entries: nothing, or it writes the caller's. -/
theorem lock_entries (t : JvmVfsLocks) (conn : Int) (name : String) (target : Int) :
    (∀ m c, (t.lock conn name target).1.entry m c = t.entry m c) ∨
    (t.level name conn < target ∧ ¬ t.Blocked conn name target ∧
      ∀ m c, (t.lock conn name target).1.entry m c = if m = name ∧ c = conn then some target else t.entry m c) := by
  have hcur := fileState_levels_lookup t name conn
  simp only [lock]
  split_ifs with hle hb
  · exact .inl fun m c => fileState_entry t name m c
  · exact .inl fun m c => fileState_entry t name m c
  · rw [blocked_iff] at hb
    rw [hcur] at hle
    exact .inr ⟨lt_of_not_ge hle, hb, fun m c => entry_insert t name m conn c target⟩

/-- What `unlock` does to them. -/
theorem unlock_entry (t : JvmVfsLocks) (conn : Int) (name : String) (target : Int) (m : String) (c : Int) :
    (t.unlock conn name target).1.entry m c =
      if m = name ∧ c = conn then (if target ≤ NONE then none else some target) else t.entry m c := by
  simp only [unlock]
  by_cases ht : target ≤ NONE
  · rw [if_pos ht, if_pos ht]
    exact entry_erase t name m conn c
  · rw [if_neg ht, if_neg ht]
    exact entry_insert t name m conn c target

/-! ## The contract -/

/-- Nobody's entry is another one. -/
def Same (t t' : JvmVfsLocks) : Prop := ∀ m c, t'.entry m c = t.entry m c

/-- Only one connection's entry on one file is another one. -/
def OnlyOf (name : String) (conn : Int) (t t' : JvmVfsLocks) : Prop :=
  ∀ m c, ¬ (m = name ∧ c = conn) → t'.entry m c = t.entry m c

/-- `xLock`. -/
structure LockMeets (t : JvmVfsLocks) (conn : Int) (name : String) (target : Int) (t' : JvmVfsLocks) (rc : Int) :
    Prop where
  raises : t.level name conn ≤ t'.level name conn
  noop : target ≤ t.level name conn → rc = OK ∧ Same t t'
  others : OnlyOf name conn t t'

/-- `xUnlock`. -/
structure UnlockMeets (t : JvmVfsLocks) (conn : Int) (name : String) (target : Int) (t' : JvmVfsLocks) : Prop where
  lowers : t'.level name conn ≤ t.level name conn
  noop : t.level name conn ≤ target → Same t t'
  others : OnlyOf name conn t t'

/-- Nobody is at `SHARED` or above beside another one at `EXCLUSIVE`. -/
def Alone (t : JvmVfsLocks) : Prop :=
  ∀ n c d, c ≠ d → t.level n c = EXCLUSIVE → ¬ SHARED ≤ t.level n d

theorem Same.level {t t' : JvmVfsLocks} (h : Same t t') (m : String) (c : Int) : t'.level m c = t.level m c := by
  rw [level_eq_entry, h, level_eq_entry]

/-- `lock` meets its contract from every table. -/
theorem lock_meets (t : JvmVfsLocks) (conn : Int) (name : String) (target : Int) :
    LockMeets t conn name target (t.lock conn name target).1 (t.lock conn name target).2 := by
  have hrc : target ≤ t.level name conn → (t.lock conn name target).2 = OK := by
    intro hle
    rcases lock_cases t conn name target with ⟨-, hok, -⟩ | ⟨hlt, -⟩ | ⟨hlt, -⟩
    · exact hok
    · omega
    · omega
  rcases lock_entries t conn name target with hsame | ⟨hlt, -, hnew⟩
  · exact ⟨le_of_eq (Same.level hsame name conn).symm, fun hle => ⟨hrc hle, hsame⟩, fun m c _ => hsame m c⟩
  · refine ⟨?_, fun hle => by omega, fun m c hmc => by rw [hnew, if_neg hmc]⟩
    rw [level_eq_entry (t.lock conn name target).1, hnew]
    simp only [and_self, if_true, Option.getD_some]
    exact le_of_lt hlt

/-! ## Runs -/

/-- A call by any connection on any file. -/
inductive LockCall where
  | lock (conn : Int) (name : String) (target : Int)
  | unlock (conn : Int) (name : String) (target : Int)

/-- One call and its answer; a target outside the header's has no next state. -/
def call (t : JvmVfsLocks) : LockCall → Option (JvmVfsLocks × Int)
  | .lock conn name target =>
    if target = SHARED ∨ target = RESERVED ∨ target = PENDING ∨ target = EXCLUSIVE then
      some (t.lock conn name target)
    else none
  | .unlock conn name target =>
    if target = NONE ∨ target = SHARED then some (t.unlock conn name target) else none

/-- A call, without its answer. -/
def step (t : JvmVfsLocks) (c : LockCall) : Option JvmVfsLocks := (t.call c).map Prod.fst

/-- The call does what the header says of it. -/
def Meets (t : JvmVfsLocks) (c : LockCall) : Prop :=
  ∀ t' rc, t.call c = some (t', rc) → match c with
    | .lock conn name target => LockMeets t conn name target t' rc
    | .unlock conn name target => UnlockMeets t conn name target t'

/-- No unlock to `SHARED` from below it. -/
def NotUpward (t : JvmVfsLocks) : LockCall → Prop
  | .lock .. => True
  | .unlock conn name target => target = SHARED → SHARED ≤ t.level name conn

/-- An entry is at `SHARED` or above, and nobody is beside an `EXCLUSIVE` one. -/
structure Inv (t : JvmVfsLocks) : Prop where
  held : ∀ n c l, t.entry n c = some l → SHARED ≤ l
  alone : t.Alone

theorem inv_empty : Inv {} where
  held _ _ _ h := by cases h
  alone _ _ _ _ h := by cases h

section
variable {t : JvmVfsLocks}

/-- Below `SHARED` there is no entry. -/
theorem Inv.entry_none (hi : Inv t) {n : String} {c : Int} (h : ¬ SHARED ≤ t.level n c) : t.entry n c = none := by
  cases he : t.entry n c with
  | none => rfl
  | some l =>
    rw [level_eq_entry, he] at h
    exact absurd (hi.held n c l he) h

/-- One connection's entry set. -/
theorem Inv.set (hi : Inv t) {t' : JvmVfsLocks} {name : String} {conn : Int} {l : Option Int}
    (he : ∀ m c, t'.entry m c = if m = name ∧ c = conn then l else t.entry m c)
    (hl : ∀ k, l = some k → SHARED ≤ k)
    (hex : l = some EXCLUSIVE → ∀ d, d ≠ conn → ¬ SHARED ≤ t.level name d)
    (hbeside : l ≠ none → ∀ c, c ≠ conn → t.level name c ≠ EXCLUSIVE) : Inv t' := by
  have self : t'.level name conn = l.getD NONE := by rw [level_eq_entry, he, if_pos ⟨rfl, rfl⟩]
  have other : ∀ {m c}, ¬ (m = name ∧ c = conn) → t'.level m c = t.level m c := fun {m c} h => by
    rw [level_eq_entry, he, if_neg h, level_eq_entry]
  refine ⟨fun n c k h => ?_, fun n c d hcd hc hd => ?_⟩
  · rw [he] at h
    split at h
    · exact hl k h
    · exact hi.held n c k h
  · by_cases hself : n = name ∧ c = conn
    · obtain ⟨rfl, rfl⟩ := hself
      rw [other (fun h => hcd h.2.symm)] at hd
      refine hex ?_ d (Ne.symm hcd) hd
      rw [self] at hc
      cases l with
      | none => cases hc
      | some k => exact congrArg some hc
    · rw [other hself] at hc
      by_cases hd' : n = name ∧ d = conn
      · obtain ⟨rfl, rfl⟩ := hd'
        refine hbeside ?_ c hcd hc
        rintro rfl
        rw [self] at hd
        exact absurd hd (by decide)
      · rw [other hd'] at hd
        exact hi.alone n c d hcd hc hd

/-- A grant: whatever the target is, an `EXCLUSIVE` holder blocks it, and `EXCLUSIVE` itself waits for
everybody. -/
theorem Inv.lock (hi : Inv t) {conn : Int} {name : String} {target : Int}
    (ht : target = SHARED ∨ target = RESERVED ∨ target = PENDING ∨ target = EXCLUSIVE) :
    Inv (t.lock conn name target).1 := by
  rcases lock_entries t conn name target with hsame | ⟨-, hb, hnew⟩
  · refine ⟨fun n c l h => hi.held n c l (by rwa [hsame] at h), fun n c d hcd hc hd => ?_⟩
    rw [Same.level hsame] at hc hd
    exact hi.alone n c d hcd hc hd
  · refine hi.set hnew (fun k hk => ?_) (fun hx d hd hs => ?_) fun _ c hc hx => ?_
    · cases hk
      rcases ht with rfl | rfl | rfl | rfl <;> decide
    · exact hb (.inr (.inr (.inr ⟨Option.some.inj hx, d, hd, hs⟩)))
    · refine hb ?_
      rcases ht with rfl | rfl | rfl | rfl
      · exact .inl ⟨rfl, c, hc, by rw [hx]; decide⟩
      · exact .inr (.inl ⟨rfl, c, hc, by rw [hx]; decide⟩)
      · exact .inr (.inr (.inl ⟨rfl, c, hc, by rw [hx]; decide⟩))
      · exact .inr (.inr (.inr ⟨rfl, c, hc, by rw [hx]; decide⟩))

/-- A downgrade: whoever stays at `SHARED` was there beside nobody at `EXCLUSIVE`. -/
theorem Inv.unlock (hi : Inv t) {conn : Int} {name : String} {target : Int} (ht : target = NONE ∨ target = SHARED)
    (hup : target = SHARED → SHARED ≤ t.level name conn) : Inv (t.unlock conn name target).1 := by
  refine hi.set (unlock_entry t conn name target) (fun k hk => ?_) (fun hx => ?_) fun hl c hc hx => ?_
  all_goals rcases ht with rfl | rfl
  · cases hk
  · cases hk; decide
  · cases hx
  · cases hx
  · exact absurd rfl hl
  · exact hi.alone name c conn hc hx (hup rfl)

/-- `unlock` meets its contract where it is no request upwards. -/
theorem Inv.unlock_meets (hi : Inv t) {conn : Int} {name : String} {target : Int}
    (ht : target = NONE ∨ target = SHARED) (hup : target = SHARED → SHARED ≤ t.level name conn) :
    UnlockMeets t conn name target (t.unlock conn name target).1 := by
  have he := unlock_entry t conn name target
  have self : (t.unlock conn name target).1.level name conn = target := by
    rw [unlock_level, if_pos ⟨rfl, rfl⟩]
    rcases ht with rfl | rfl <;> decide
  have hle : target ≤ t.level name conn := by
    rcases ht with rfl | rfl
    · by_contra hneg
      have hnone := hi.entry_none (n := name) (c := conn) fun hs => hneg (le_trans (by decide) hs)
      rw [level_eq_entry, hnone] at hneg
      exact hneg (by decide)
    · exact hup rfl
  refine ⟨by rw [self]; exact hle, fun hge m c => ?_, fun m c hmc => by rw [he, if_neg hmc]⟩
  rw [he]
  split
  · next hmc =>
    obtain ⟨rfl, rfl⟩ := hmc
    have hlevel : t.level m c = target := le_antisymm hge hle
    rcases ht with rfl | rfl
    · exact (hi.entry_none (by rw [hlevel]; decide)).symm
    · rw [level_eq_entry] at hlevel
      cases hentry : t.entry m c with
      | none => rw [hentry] at hlevel; cases hlevel
      | some l => rw [hentry] at hlevel; exact (congrArg some hlevel).symm
  · rfl

end

/-- Upwards, `unlock` does not meet it. -/
theorem notUpward_of_meets {t : JvmVfsLocks} {c : LockCall} (h : Meets t c) : NotUpward t c := by
  cases c with
  | lock conn name target => trivial
  | unlock conn name target =>
    rintro rfl
    by_contra hlt
    have hmeets : UnlockMeets t conn name SHARED (t.unlock conn name SHARED).1 := h _ _ rfl
    have hnoop := (hmeets.noop (le_of_not_ge hlt)).level name conn
    rw [unlock_level, if_pos ⟨rfl, rfl⟩] at hnoop
    exact hlt (le_of_eq_of_le (by decide) (le_of_eq hnoop))

theorem Inv.step {t t' : JvmVfsLocks} {c : LockCall} (hi : Inv t) (hup : NotUpward t c)
    (h : step t c = some t') : Inv t' := by
  cases c with
  | lock conn name target =>
    simp only [JvmVfsLocks.step, call] at h
    split at h <;> cases h
    next ht => exact hi.lock ht
  | unlock conn name target =>
    simp only [JvmVfsLocks.step, call] at h
    split at h <;> cases h
    next ht => exact hi.unlock ht hup

theorem Inv.meets {t : JvmVfsLocks} {c : LockCall} (hi : Inv t) (hup : NotUpward t c) : Meets t c := by
  intro t' rc h
  cases c with
  | lock conn name target =>
    simp only [call] at h
    split at h
    · have hmeets := lock_meets t conn name target
      rwa [Option.some.inj h] at hmeets
    · cases h
  | unlock conn name target =>
    simp only [call] at h
    split at h
    · next ht =>
      have hmeets := hi.unlock_meets ht hup
      rwa [Option.some.inj h] at hmeets
    · cases h

/-- **The header's contract**, over every run of calls in its domain: every
call meets it and nobody is ever beside an `EXCLUSIVE` holder, exactly when no
`unlock` of the run goes upwards. -/
theorem contract_run_iff (calls : List LockCall) :
    (EveryStep step Meets {} calls ∧ EveryState step Alone {} calls) ↔ EveryStep step NotUpward {} calls := by
  constructor
  · intro h
    exact h.1.imp fun _ _ => notUpward_of_meets
  · intro h
    exact ⟨everyStep_of_invariant (fun _ _ _ hi hup hs => hi.step hup hs) (fun _ _ hi hup => hi.meets hup) inv_empty h,
      everyState_of_invariant (fun _ _ _ hi hup hs => hi.step hup hs) (fun _ hi => hi.alone) inv_empty h⟩

/-- Connection 2, without a lock, unlocks to `SHARED` while connection 1 is at `EXCLUSIVE`. -/
theorem unlock_grants :
    ¬ EveryState step Alone {} [.lock 1 "db" SHARED, .lock 1 "db" EXCLUSIVE, .unlock 2 "db" SHARED] := by
  intro hall
  exact hall.last rfl "db" 1 2 (by decide) rfl (by decide)

end JvmVfsLocks

end Sqlol

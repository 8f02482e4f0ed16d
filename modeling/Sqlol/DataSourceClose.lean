/-
`SqliteDataSource.close` beside `getConnection`, `SqliteConnection.close` and
the statements of the connections.

`close` works on a snapshot of the open connections and skips one whose own
`close` has begun, whether it is over or not. So its order is only as good as
the caller's: the runs considered are those where no `close` of the data
source overlaps another call (`NoOverlap`); statements may run at any time.
In these runs, unless a `stop` throws, runtime and ownership go behind the
last worker.
-/
import Sqlol.WalClose
import Mathlib.Data.List.Perm.Basic

namespace Sqlol

namespace SqliteDataSource

/-- Where a call is. `rest` are the connections of the snapshot still to be closed. -/
inductive Pc where
  | idle
  /-- `getConnection`, past `check(!closed)`. -/
  | spawning
  /-- `SqliteConnection.close`, past `if (closed) return`. -/
  | marking (k : Nat)
  /-- The flag is set. -/
  | stopping (k : Nat)
  | removing (k : Nat)
  | dsClosing (rest : List Nat)
  | dsMarking (k : Nat) (rest : List Nat)
  | dsStopping (k : Nat) (rest : List Nat)
  | dsRemoving (k : Nat) (rest : List Nat)
  | dsUnlocking
  | done
  deriving DecidableEq

/-- The call is inside `SqliteDataSource.close`. -/
def Pc.closing : Pc → Bool
  | .dsClosing _ | .dsMarking .. | .dsStopping .. | .dsRemoving .. | .dsUnlocking => true
  | _ => false

/-- The call is over or has not begun. -/
def Pc.away : Pc → Bool
  | .idle | .done => true
  | _ => false

/-- Connections are numbered as they are made. -/
structure Sys where
  next : Nat := 0
  workers : Nat → SqliteWorker := fun _ => {}
  conClosed : Nat → Bool := fun _ => false
  connections : Nat → Bool := fun _ => false
  closed : Bool := false
  rt : Runtime := {}
  pc : Nat → Pc := fun _ => .idle

/-- The steps of the calls `c` and of the workers `k`. -/
inductive Label where
  | enter (k : Nat)
  | leave (k : Nat)
  | getConnection (c : Nat)
  | spawn (c : Nat) (ok : Bool)
  | conClose (c k : Nat)
  | conMark (c : Nat)
  | stop (c : Nat) (e : StopEnd)
  | remove (c : Nat)
  /-- `order` is the order the set iterates in. -/
  | dsClose (c : Nat) (order : List Nat)
  | dsNext (c : Nat)
  | rtClose (c : Nat)
  | unlock (c : Nat)

namespace Sys

/-- The call goes on at `p`. -/
def goto (s : Sys) (c : Nat) (p : Pc) : Sys := { s with pc := Function.update s.pc c p }

/-- Another state of a worker. -/
def setWorker (s : Sys) (k : Nat) (w : SqliteWorker) : Sys := { s with workers := Function.update s.workers k w }

/-- `closed = true` of a connection. -/
def markClosed (s : Sys) (k : Nat) : Sys := { s with conClosed := Function.update s.conClosed k true }

/-- `onConnectionClosed`. -/
def drop (s : Sys) (k : Nat) : Sys := { s with connections := Function.update s.connections k false }

/-- A `stop` of one of the runtime's workers threw. -/
def noteThrow (s : Sys) : Sys := { s with rt := { s.rt with threw := true } }

/-- The open connections, as `toList()` sees them up to order. -/
def snapshot (s : Sys) : List Nat := (List.range s.next).filter fun k => s.connections k

end Sys

/-- One step; none where the call is not there. -/
def step (s : Sys) : Label → Option Sys
  | .enter k => (s.workers k).enter.map (s.setWorker k)
  | .leave k => (s.workers k).leave.map (s.setWorker k)
  | .getConnection c => match s.pc c with
    | .idle => some (s.goto c (if s.closed then .done else .spawning))
    | _ => none
  | .spawn c ok => match s.pc c with
    | .spawning =>
      if ok then
        some ({ s with
          next := s.next + 1
          workers := Function.update s.workers s.next {}
          conClosed := Function.update s.conClosed s.next false
          connections := Function.update s.connections s.next true }.goto c .done)
      else some (s.goto c .done)
    | _ => none
  | .conClose c k => match s.pc c with
    | .idle =>
      if k < s.next then some (s.goto c (if s.conClosed k then .done else .marking k)) else none
    | _ => none
  | .conMark c => match s.pc c with
    | .marking k => some ((s.markClosed k).goto c (.stopping k))
    | .dsMarking k rest => some ((s.markClosed k).goto c (.dsStopping k rest))
    | _ => none
  | .stop c e => match s.pc c with
    | .stopping k => match (s.workers k).stop e with
      | none => none
      | some (w, true) => some ((s.setWorker k w).goto c (.removing k))
      | some (w, false) => some ((s.setWorker k w).noteThrow.goto c .done)
    | .dsStopping k rest => match (s.workers k).stop e with
      | none => none
      | some (w, true) => some ((s.setWorker k w).goto c (.dsRemoving k rest))
      | some (w, false) => some ((s.setWorker k w).noteThrow.goto c .dsUnlocking)
    | _ => none
  | .remove c => match s.pc c with
    | .removing k => some ((s.drop k).goto c .done)
    | .dsRemoving k rest => some ((s.drop k).goto c (.dsClosing rest))
    | _ => none
  | .dsClose c order => match s.pc c with
    | .idle =>
      if s.closed then some (s.goto c .done)
      else if order.Perm s.snapshot then some ({ s with closed := true }.goto c (.dsClosing order))
      else none
    | _ => none
  | .dsNext c => match s.pc c with
    | .dsClosing (k :: rest) => some (s.goto c (if s.conClosed k then .dsClosing rest else .dsMarking k rest))
    | _ => none
  | .rtClose c => match s.pc c with
    | .dsClosing [] => some ({ s with rt := { s.rt with wasiClosed := true } }.goto c .dsUnlocking)
    | _ => none
  | .unlock c => match s.pc c with
    | .dsUnlocking => some ({ s with rt := { s.rt with lockReleased := true } }.goto c .done)
    | _ => none

/-- `SqliteDataSource.close` begins when no other call is under way, and none
begins before it is over. -/
def NoOverlap (s : Sys) : Label → Prop
  | .dsClose c _ => ∀ d, d ≠ c → (s.pc d).away = true
  | .getConnection c | .conClose c _ => ∀ d, d ≠ c → (s.pc d).closing = false
  | _ => True

/-- No worker of the runtime can execute SQL any more. -/
def Stopped (s : Sys) : Prop := ∀ k < s.next, (s.workers k).Stopped

/-- What is closed is closed behind the workers, unless a `stop` threw. -/
def Safe (s : Sys) : Prop := s.rt.wasiClosed = true ∨ s.rt.lockReleased = true → s.rt.threw = false → Stopped s

/-! ## The invariant -/

/-- What a call knows where it is. The connections that the data source still
has to see to are `rest` and the one it is in. -/
def Pc.Knows (s : Sys) : Pc → Prop
  | .spawning => s.closed = false
  | .marking k | .stopping k => k < s.next
  | .removing k => k < s.next ∧ (s.workers k).Stopped
  | .dsClosing rest => s.closed = true ∧ ∀ k < s.next, (s.workers k).Stopped ∨ k ∈ rest
  | .dsMarking k rest | .dsStopping k rest =>
    s.closed = true ∧ ∀ j < s.next, (s.workers j).Stopped ∨ j = k ∨ j ∈ rest
  | .dsRemoving k rest => s.closed = true ∧ (s.workers k).Stopped ∧
      ∀ j < s.next, (s.workers j).Stopped ∨ j ∈ rest
  | .dsUnlocking => s.closed = true ∧ Stopped s
  | _ => True

/-- As long as no `stop` has thrown. -/
structure Clean (s : Sys) : Prop where
  /-- A connection leaves the set behind its worker. -/
  listed : ∀ k < s.next, s.connections k = true ∨ (s.workers k).Stopped
  /-- The flag is set by a call that has stopped the worker or is about to. -/
  marked : ∀ k < s.next, s.conClosed k = true → (s.workers k).Stopped ∨
    (∃ c, s.pc c = .stopping k) ∨ ∃ c rest, s.pc c = .dsStopping k rest
  knows : ∀ c, (s.pc c).Knows s
  ended : s.rt.wasiClosed = true ∨ s.rt.lockReleased = true → s.closed = true ∧ Stopped s

/-- One call closes at a time, and until something throws everything is as it should be. -/
structure Inv (s : Sys) : Prop where
  alone : ∀ c d, (s.pc c).closing = true → d ≠ c → (s.pc d).away = true
  clean : s.rt.threw = false → Clean s

theorem inv_start : Inv {} where
  alone _ _ h := by cases h
  clean _ :=
    { listed := fun k hk => absurd hk (Nat.not_lt_zero k)
      marked := fun k hk => absurd hk (Nat.not_lt_zero k)
      knows := fun _ => trivial
      ended := fun h => by rcases h with h | h <;> cases h }

theorem Pc.not_closing_of_away {p : Pc} (h : p.away = true) : p.closing = false := by
  cases p <;> first | rfl | cases h

/-- What a call knows where it is. -/
theorem Clean.knows_at {s : Sys} {c : Nat} {p : Pc} (hc : Clean s) (hpc : s.pc c = p) : p.Knows s :=
  hpc ▸ hc.knows c

/-- What a call knows stays so while workers stay closed. -/
theorem Pc.Knows.mono {s s' : Sys} {p : Pc} (h : p.Knows s) (hnext : s'.next = s.next)
    (hw : ∀ k, (s.workers k).Stopped → (s'.workers k).Stopped)
    (hcl : s.closed = true → s'.closed = true) (hsp : p = .spawning → s'.closed = s.closed) : p.Knows s' := by
  cases p with
  | spawning => exact (hsp rfl).trans h
  | marking k | stopping k => exact Nat.lt_of_lt_of_eq h hnext.symm
  | removing k => exact ⟨Nat.lt_of_lt_of_eq h.1 hnext.symm, hw k h.2⟩
  | dsClosing rest => exact ⟨hcl h.1, fun k hk => (h.2 k (hnext ▸ hk)).imp_left (hw k)⟩
  | dsMarking k rest | dsStopping k rest =>
    exact ⟨hcl h.1, fun j hj => (h.2 j (hnext ▸ hj)).imp_left (hw j)⟩
  | dsRemoving k rest => exact ⟨hcl h.1, hw k h.2.1, fun j hj => (h.2.2 j (hnext ▸ hj)).imp_left (hw j)⟩
  | dsUnlocking => exact ⟨hcl h.1, fun k hk => hw k (h.2 k (hnext ▸ hk))⟩
  | idle => trivial
  | done => trivial

/-- A call of `c` keeps `SqliteDataSource.close` alone. -/
theorem Inv.alone_advance {s : Sys} (hi : Inv s) {c : Nat} {p : Pc}
    (hold : (s.pc c).away = false ∨ ∀ d, d ≠ c → (s.pc d).closing = false)
    (hnew : p.closing = true → (s.pc c).closing = true ∨ ∀ d, d ≠ c → (s.pc d).away = true) (a b : Nat)
    (ha : (Function.update s.pc c p a).closing = true) (hb : b ≠ a) :
    (Function.update s.pc c p b).away = true := by
  by_cases hac : a = c
  · subst hac
    rw [Function.update_self] at ha
    rw [Function.update_of_ne hb]
    rcases hnew ha with h | h
    · exact hi.alone a b h hb
    · exact h b hb
  · rw [Function.update_of_ne hac] at ha
    by_cases hbc : b = c
    · subst hbc
      rcases hold with h | h
      · rw [hi.alone a b ha hb] at h; cases h
      · rw [h a hac] at ha; cases ha
    · rw [Function.update_of_ne hbc]; exact hi.alone a b ha hb

/-- A call moves on; connections are as many as before. -/
theorem Clean.advance {s s' : Sys} (hc : Clean s) {c : Nat} {p : Pc} (hnext : s'.next = s.next)
    (hpc : s'.pc = Function.update s.pc c p)
    (hw : ∀ k, (s.workers k).Stopped → (s'.workers k).Stopped)
    (hcl : s.closed = true → s'.closed = true)
    (hsp : ∀ d, d ≠ c → s.pc d = .spawning → s'.closed = s.closed)
    (hlisted : ∀ k, s.connections k = true → s'.connections k = true ∨ (s'.workers k).Stopped)
    (hmarked : ∀ k, s'.conClosed k = true → (s'.workers k).Stopped ∨ p = .stopping k ∨
      (∃ rest, p = .dsStopping k rest) ∨ (s.conClosed k = true ∧ s.pc c ≠ .stopping k ∧ ∀ rest, s.pc c ≠ .dsStopping k
        rest))
    (hp : p.Knows s')
    (hended : s'.rt.wasiClosed = true ∨ s'.rt.lockReleased = true →
      (s.rt.wasiClosed = true ∨ s.rt.lockReleased = true) ∨ (s'.closed = true ∧ Stopped s')) : Clean s' := by
  have same : s'.pc c = p := by rw [hpc, Function.update_self]
  have other : ∀ d, d ≠ c → s'.pc d = s.pc d := fun d hd => by rw [hpc, Function.update_of_ne hd]
  refine ⟨fun k hk => ?_, fun k hk hm => ?_, fun d => ?_, fun he => ?_⟩
  · rcases hc.listed k (hnext ▸ hk) with h | h
    · exact hlisted k h
    · exact .inr (hw k h)
  · rcases hmarked k hm with h | h | ⟨rest, h⟩ | ⟨h, h1, h2⟩
    · exact .inl h
    · exact .inr (.inl ⟨c, same.trans h⟩)
    · exact .inr (.inr ⟨c, rest, same.trans h⟩)
    · rcases hc.marked k (hnext ▸ hk) h with h | ⟨d, h⟩ | ⟨d, rest, h⟩
      · exact .inl (hw k h)
      · have hdc : d ≠ c := fun hdc => h1 (hdc ▸ h)
        exact .inr (.inl ⟨d, (other d hdc).trans h⟩)
      · have hdc : d ≠ c := fun hdc => h2 rest (hdc ▸ h)
        exact .inr (.inr ⟨d, rest, (other d hdc).trans h⟩)
  · by_cases hdc : d = c
    · subst hdc; rw [same]; exact hp
    · rw [other d hdc]; exact (hc.knows d).mono hnext hw hcl (hsp d hdc)
  · rcases hended he with h | h
    · obtain ⟨h1, h2⟩ := hc.ended h
      exact ⟨hcl h1, fun k hk => hw k (h2 k (hnext ▸ hk))⟩
    · exact h

theorem setWorker_self {s : Sys} {k : Nat} {w : SqliteWorker} : (s.setWorker k w).workers k = w :=
  Function.update_self ..

/-- A statement begins or ends on a worker. -/
theorem Inv.setWorker {s : Sys} (hi : Inv s) {k : Nat} {w : SqliteWorker}
    (h : (s.workers k).Stopped → w.Stopped) : Inv (s.setWorker k w) := by
  refine ⟨hi.alone, fun ht => ?_⟩
  have hc := hi.clean ht
  have hw := SqliteWorker.stopped_update h
  exact ⟨fun j hj => (hc.listed j hj).imp_right (hw j), fun j hj hm => (hc.marked j hj hm).imp_left (hw j),
    fun d => (hc.knows d).mono rfl hw id fun _ => rfl,
    fun he => ⟨(hc.ended he).1, fun j hj => hw j ((hc.ended he).2 j hj)⟩⟩

/-! ## The steps -/

section
variable {s : Sys} {c : Nat}

/-- A step of `c` that changes nothing but where it is. -/
theorem Clean.goto (hc : Clean s) {p : Pc} (h1 : ∀ k, s.pc c ≠ .stopping k)
    (h2 : ∀ k rest, s.pc c ≠ .dsStopping k rest) (hp : p.Knows s) : Clean (s.goto c p) :=
  hc.advance rfl rfl (fun _ h => h) id (fun _ _ _ => rfl) (fun _ h => .inl h)
    (fun k hk => .inr (.inr (.inr ⟨hk, h1 k, h2 k⟩))) hp .inl

/-- Setting a connection's flag, with `c` about to stop its worker. -/
theorem Clean.mark (hc : Clean s) {k : Nat} {p : Pc} (h1 : ∀ j, s.pc c ≠ .stopping j)
    (h2 : ∀ j rest, s.pc c ≠ .dsStopping j rest) (hk : p = .stopping k ∨ ∃ rest, p = .dsStopping k rest)
    (hp : p.Knows s) : Clean ((s.markClosed k).goto c p) := by
  refine hc.advance rfl rfl (fun _ h => h) id (fun _ _ _ => rfl) (fun _ h => .inl h) (fun j hj => ?_)
    (hp.mono rfl (fun _ h => h) id fun _ => rfl) .inl
  by_cases hjk : j = k
  · subst hjk; exact .inr (hk.imp_right .inl)
  · simp only [Sys.markClosed, Sys.goto, Function.update_of_ne hjk] at hj
    exact .inr (.inr (.inr ⟨hj, h1 j, h2 j⟩))

/-- A `stop` that returned. -/
theorem Clean.stopped (hc : Clean s) {k : Nat} {w : SqliteWorker} {e : StopEnd} {p : Pc}
    (hw : (s.workers k).stop e = some (w, true))
    (hold : s.pc c = .stopping k ∨ ∃ rest, s.pc c = .dsStopping k rest)
    (hp : p.Knows (s.setWorker k w)) : Clean ((s.setWorker k w).goto c p) := by
  refine hc.advance rfl rfl (SqliteWorker.stopped_update (·.stop hw)) id (fun _ _ _ => rfl)
    (fun _ h => .inl h) (fun j hj => ?_) (hp.mono rfl (fun _ h => h) id fun _ => rfl) .inl
  by_cases hjk : j = k
  · subst hjk
    exact .inl (setWorker_self.symm ▸ SqliteWorker.stop_returned hw)
  · refine .inr (.inr (.inr ⟨hj, fun h => ?_, fun rest h => ?_⟩))
    · rcases hold with h' | ⟨r, h'⟩ <;> rw [h'] at h <;> cases h
      exact hjk rfl
    · rcases hold with h' | ⟨r, h'⟩ <;> rw [h'] at h <;> cases h
      exact hjk rfl

/-- `onConnectionClosed`, behind the stop. -/
theorem Clean.drop (hc : Clean s) {k : Nat} {p : Pc} (h1 : ∀ j, s.pc c ≠ .stopping j)
    (h2 : ∀ j rest, s.pc c ≠ .dsStopping j rest) (hk : (s.workers k).Stopped) (hp : p.Knows s) :
    Clean ((s.drop k).goto c p) := by
  refine hc.advance rfl rfl (fun _ h => h) id (fun _ _ _ => rfl) (fun j hj => ?_)
    (fun j hj => .inr (.inr (.inr ⟨hj, h1 j, h2 j⟩))) (hp.mono rfl (fun _ h => h) id fun _ => rfl) .inl
  by_cases hjk : j = k
  · subst hjk; exact .inr hk
  · simp only [Sys.drop, Sys.goto, Function.update_of_ne hjk]
    exact .inl hj

/-- A new connection; nobody is closing the data source. -/
theorem Clean.spawn (hc : Clean s) (hpc : s.pc c = .spawning)
    (halone : ∀ d, (s.pc d).closing = false) :
    Clean ({ s with
      next := s.next + 1
      workers := Function.update s.workers s.next {}
      conClosed := Function.update s.conClosed s.next false
      connections := Function.update s.connections s.next true }.goto c .done) := by
  have hopen : s.closed = false := by have := hc.knows c; rwa [hpc] at this
  have old : ∀ k, k < s.next + 1 → k ≠ s.next → k < s.next := fun k h1 h2 => by omega
  refine ⟨fun k hk => ?_, fun k hk hm => ?_, fun d => ?_, fun he => ?_⟩
  · by_cases hkn : k = s.next
    · subst hkn; exact .inl (Function.update_self ..)
    · simp only [Sys.goto, Function.update_of_ne hkn]
      exact hc.listed k (old k hk hkn)
  · by_cases hkn : k = s.next
    · subst hkn
      simp only [Sys.goto, Function.update_self] at hm
      cases hm
    · simp only [Sys.goto, Function.update_of_ne hkn] at hm ⊢
      rcases hc.marked k (old k hk hkn) hm with h | ⟨d, h⟩ | ⟨d, rest, h⟩
      · exact .inl h
      · have hdc : d ≠ c := fun hdc => by rw [hdc, hpc] at h; cases h
        exact .inr (.inl ⟨d, by rw [Function.update_of_ne hdc]; exact h⟩)
      · have := halone d
        rw [h] at this
        cases this
  · by_cases hdc : d = c
    · subst hdc; simp only [Sys.goto, Function.update_self]; trivial
    · simp only [Sys.goto, Function.update_of_ne hdc]
      have hk := hc.knows d
      have hd := halone d
      cases hpd : s.pc d with
      | spawning => exact hopen
      | marking k | stopping k =>
        rw [hpd] at hk
        exact Nat.lt_succ_of_lt hk
      | removing k =>
        rw [hpd] at hk
        simp only [Pc.Knows, Function.update_of_ne (Nat.ne_of_lt hk.1)]
        exact ⟨Nat.lt_succ_of_lt hk.1, hk.2⟩
      | idle => trivial
      | done => trivial
      | _ => rw [hpd] at hd; cases hd
  · have := (hc.ended he).1
    rw [hopen] at this
    cases this

/-- The data source begins its `close`: everybody else is away. -/
theorem Clean.begin (hc : Clean s) {order : List Nat} (hpc : s.pc c = .idle) (horder : order.Perm s.snapshot)
    (haway : ∀ d, d ≠ c → (s.pc d).away = true) :
    Clean ({ s with closed := true }.goto c (.dsClosing order)) := by
  refine hc.advance rfl rfl (fun _ h => h) (fun _ => rfl) (fun d hd h => ?_) (fun _ h => .inl h)
    (fun k hk => .inr (.inr (.inr ⟨hk, by simp [hpc], by simp [hpc]⟩))) ⟨rfl, fun k hk => ?_⟩ .inl
  · have := haway d hd
    rw [h] at this
    cases this
  · rcases hc.listed k hk with h | h
    · refine .inr (horder.mem_iff.mpr ?_)
      exact List.mem_filter.mpr ⟨List.mem_range.mpr hk, h⟩
    · exact .inl h

/-- The data source skips a connection that is closed: with no other call under way its worker is. -/
theorem Inv.skip (hi : Inv s) {k : Nat} {rest : List Nat} (hpc : s.pc c = .dsClosing (k :: rest))
    (hk : s.conClosed k = true) (ht : s.rt.threw = false) : Clean (s.goto c (.dsClosing rest)) := by
  have hc := hi.clean ht
  have hknows := hc.knows_at hpc
  refine hc.goto (by simp [hpc]) (by simp [hpc]) ⟨hknows.1, fun j hj => ?_⟩
  rcases hknows.2 j hj with h | h
  · exact .inl h
  · rcases List.mem_cons.mp h with rfl | h
    · rcases hc.marked j hj hk with h | ⟨d, h⟩ | ⟨d, r, h⟩
      · exact .inl h
      all_goals
        have hdc : d ≠ c := fun hdc => by rw [hdc, hpc] at h; cases h
        have haway := hi.alone c d (by rw [hpc]; rfl) hdc
        rw [h] at haway
        cases haway
    · exact .inr h

end

theorem Inv.step {s s' : Sys} {l : Label} (hi : Inv s) (hno : NoOverlap s l) (h : step s l = some s') :
    Inv s' := by
  cases l with
  | enter k =>
    obtain ⟨w, hw, rfl⟩ := Option.map_eq_some_iff.mp h
    exact hi.setWorker (·.enter hw)
  | leave k =>
    obtain ⟨w, hw, rfl⟩ := Option.map_eq_some_iff.mp h
    exact hi.setWorker (·.leave hw)
  | getConnection c =>
    simp only [SqliteDataSource.step] at h
    split at h <;> cases h
    next hpc =>
    refine ⟨hi.alone_advance (.inr hno) fun hp => ?_,
      fun ht => (hi.clean ht).goto (by simp [hpc]) (by simp [hpc]) ?_⟩
    · split at hp <;> cases hp
    · split
      · trivial
      · next hc => exact eq_false_of_ne_true hc
  | spawn c ok =>
    simp only [SqliteDataSource.step] at h
    split at h
    · next hpc =>
      have haway : (s.pc c).away = false := by rw [hpc]; rfl
      have halone : ∀ d, (s.pc d).closing = false := fun d => by
        by_contra hd
        rw [Bool.not_eq_false] at hd
        have hdc : c ≠ d := fun hcd => by rw [← hcd, hpc] at hd; cases hd
        rw [hi.alone d c hd hdc] at haway
        cases haway
      split at h <;> cases h
      · exact ⟨hi.alone_advance (.inl haway) (nomatch ·), fun ht => (hi.clean ht).spawn hpc halone⟩
      · exact ⟨hi.alone_advance (.inl haway) (nomatch ·),
          fun ht => (hi.clean ht).goto (by simp [hpc]) (by simp [hpc]) trivial⟩
    · cases h
  | conClose c k =>
    simp only [SqliteDataSource.step] at h
    split at h
    · next hpc =>
      split at h <;> cases h
      next hk =>
      refine ⟨hi.alone_advance (.inr hno) fun hp => ?_,
        fun ht => (hi.clean ht).goto (by simp [hpc]) (by simp [hpc]) ?_⟩
      · split at hp <;> cases hp
      · split
        · trivial
        · exact hk
    · cases h
  | conMark c =>
    simp only [SqliteDataSource.step] at h
    split at h <;> cases h
    · next k hpc =>
      refine ⟨hi.alone_advance (.inl (by rw [hpc]; rfl)) (nomatch ·), fun ht => ?_⟩
      have hknows := (hi.clean ht).knows_at hpc
      exact (hi.clean ht).mark (by simp [hpc]) (by simp [hpc]) (.inl rfl) hknows
    · next k rest hpc =>
      refine ⟨hi.alone_advance (.inl (by rw [hpc]; rfl)) fun _ => .inl (by rw [hpc]; rfl), fun ht => ?_⟩
      have hknows := (hi.clean ht).knows_at hpc
      exact (hi.clean ht).mark (by simp [hpc]) (by simp [hpc]) (.inr ⟨rest, rfl⟩) hknows
  | stop c e =>
    simp only [SqliteDataSource.step] at h
    split at h
    · next k hpc =>
      have haway : (s.pc c).away = false := by rw [hpc]; rfl
      split at h <;> cases h
      · next w hw =>
        refine ⟨hi.alone_advance (.inl haway) (nomatch ·), fun ht => (hi.clean ht).stopped hw (.inl hpc) ?_⟩
        have hknows := (hi.clean ht).knows_at hpc
        exact ⟨hknows, setWorker_self.symm ▸ SqliteWorker.stop_returned hw⟩
      · exact ⟨hi.alone_advance (.inl haway) (nomatch ·), (nomatch ·)⟩
    · next k rest hpc =>
      have haway : (s.pc c).away = false := by rw [hpc]; rfl
      have hclosing : (s.pc c).closing = true := by rw [hpc]; rfl
      split at h <;> cases h
      · next w hw =>
        refine ⟨hi.alone_advance (.inl haway) fun _ => .inl hclosing,
          fun ht => (hi.clean ht).stopped hw (.inr ⟨rest, hpc⟩) ?_⟩
        have hknows := (hi.clean ht).knows_at hpc
        have hk : ((s.setWorker k w).workers k).Stopped :=
          setWorker_self.symm ▸ SqliteWorker.stop_returned hw
        refine ⟨hknows.1, hk, fun j hj => ?_⟩
        rcases hknows.2 j hj with h | rfl | h
        · exact .inl (SqliteWorker.stopped_update (·.stop hw) j h)
        · exact .inl hk
        · exact .inr h
      · exact ⟨hi.alone_advance (.inl haway) fun _ => .inl hclosing, (nomatch ·)⟩
    · cases h
  | remove c =>
    simp only [SqliteDataSource.step] at h
    split at h <;> cases h
    · next k hpc =>
      have haway : (s.pc c).away = false := by rw [hpc]; rfl
      refine ⟨hi.alone_advance (.inl haway) (nomatch ·), fun ht => ?_⟩
      have hknows := (hi.clean ht).knows_at hpc
      exact (hi.clean ht).drop (by simp [hpc]) (by simp [hpc]) hknows.2 trivial
    · next k rest hpc =>
      have haway : (s.pc c).away = false := by rw [hpc]; rfl
      refine ⟨hi.alone_advance (.inl haway) fun _ => .inl (by rw [hpc]; rfl), fun ht => ?_⟩
      have hknows := (hi.clean ht).knows_at hpc
      exact (hi.clean ht).drop (by simp [hpc]) (by simp [hpc]) hknows.2.1 ⟨hknows.1, hknows.2.2⟩
  | dsClose c order =>
    have hnc : ∀ d, d ≠ c → (s.pc d).closing = false := fun d hd => Pc.not_closing_of_away (hno d hd)
    simp only [SqliteDataSource.step] at h
    split at h
    · next hpc =>
      split at h
      · cases h
        exact ⟨hi.alone_advance (.inr hnc) (nomatch ·),
          fun ht => (hi.clean ht).goto (by simp [hpc]) (by simp [hpc]) trivial⟩
      · split at h <;> cases h
        next horder =>
        exact ⟨hi.alone_advance (.inr hnc) fun _ => .inr hno, fun ht => (hi.clean ht).begin hpc horder hno⟩
    · cases h
  | dsNext c =>
    simp only [SqliteDataSource.step] at h
    split at h <;> cases h
    next k rest hpc =>
    have haway : (s.pc c).away = false := by rw [hpc]; rfl
    have hclosing : (s.pc c).closing = true := by rw [hpc]; rfl
    refine ⟨hi.alone_advance (.inl haway) fun _ => .inl hclosing, fun ht => ?_⟩
    split
    · next hk => exact hi.skip hpc hk ht
    · have hknows := (hi.clean ht).knows_at hpc
      refine (hi.clean ht).goto (by simp [hpc]) (by simp [hpc]) ⟨hknows.1, fun j hj => ?_⟩
      exact (hknows.2 j hj).imp_right List.mem_cons.mp
  | rtClose c =>
    simp only [SqliteDataSource.step] at h
    split at h <;> cases h
    next hpc =>
    have haway : (s.pc c).away = false := by rw [hpc]; rfl
    refine ⟨hi.alone_advance (.inl haway) fun _ => .inl (by rw [hpc]; rfl), fun ht => ?_⟩
    have hknows := (hi.clean ht).knows_at hpc
    have hall : s.closed = true ∧ Stopped s :=
      ⟨hknows.1, fun k hk => (hknows.2 k hk).resolve_right (List.not_mem_nil)⟩
    exact (hi.clean ht).advance rfl rfl (fun _ h => h) id (fun _ _ _ => rfl) (fun _ h => .inl h)
      (fun k hk => .inr (.inr (.inr ⟨hk, by simp [hpc], by simp [hpc]⟩))) hall fun _ => .inr hall
  | unlock c =>
    simp only [SqliteDataSource.step] at h
    split at h <;> cases h
    next hpc =>
    have haway : (s.pc c).away = false := by rw [hpc]; rfl
    refine ⟨hi.alone_advance (.inl haway) (nomatch ·), fun ht => ?_⟩
    have hknows := (hi.clean ht).knows_at hpc
    exact (hi.clean ht).advance rfl rfl (fun _ h => h) id (fun _ _ _ => rfl) (fun _ h => .inl h)
      (fun k hk => .inr (.inr (.inr ⟨hk, by simp [hpc], by simp [hpc]⟩))) trivial fun _ => .inr hknows

/-- Every run in which no `close` of the data source overlaps another call. -/
theorem close_run_safe (labels : List Label) (h : EveryStep step NoOverlap {} labels) :
    EveryState step Safe {} labels :=
  everyState_of_invariant (fun _ _ _ hi hno hs => hi.step hno hs)
    (fun _ hi he ht => ((hi.clean ht).ended he).2) inv_start h

end SqliteDataSource

end Sqlol

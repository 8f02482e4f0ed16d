/-
`SqliteDataSource.getConnection` beside `close`, each in the small steps that
other threads see.

`getConnection` looks at the `closed` flag before it takes the spawn lock, and
its connection is in the set only behind the spawn. `close` sets the flag and
walks the set without that lock. So a call that was past its check when `close`
walked the set hands out a connection of a runtime that is closed
(`spawn_after_close`); and a second `close` returns at once, while the first
is still at work. With neither of these in a run, `close` leaves nothing
running behind (`close_leaves_nothing`).

Worker stops succeed, and connections are closed by `close` only; statements
may run on them at any time.
-/
import Sqlol.ReentrantLock
import Sqlol.WalClose
import Mathlib.Data.List.Perm.Basic

namespace Sqlol

namespace DataSourceRace

/-- Where a call is. -/
inductive Pc where
  | idle
  /-- `getConnection`: past the check, in the spawn lock, in `SqliteWorker.spawn`
  with the worker's thread running, behind it, and with the connection in the set. -/
  | checked
  | locked
  | spawning (k : Nat)
  | registering (k : Nat)
  | returning (k : Nat)
  /-- `close`: past `if (closed) return`, behind `closed = true`, in `toList()`. -/
  | marking
  | marked
  | walking (version : Nat)
  /-- The connections of the snapshot still to be closed, and the one whose `close` it is in. -/
  | closing (rest : List Nat)
  | conMarking (k : Nat) (rest : List Nat)
  | stopping (k : Nat) (rest : List Nat)
  | removing (k : Nat) (rest : List Nat)
  | unlocking
  | done
  deriving DecidableEq

namespace Pc

/-- In `getConnection`, past its check. -/
def inGet : Pc → Bool
  | .checked | .locked | .spawning _ | .registering _ | .returning _ => true
  | _ => false

/-- In `close`, behind `closed = true`. -/
def past : Pc → Bool
  | .marked | .walking _ | .closing _ | .conMarking .. | .stopping .. | .removing .. | .unlocking => true
  | _ => false

/-- Past the test of `closed` in `close`. -/
def inClose : Pc → Bool
  | .marking => true
  | p => p.past

end Pc

/-- A worker and its connection. -/
structure Con where
  worker : SqliteWorker := {}
  closed : Bool := false
  /-- It is in `connections`. -/
  listed : Bool := false

/-- The connection is closed and its worker stopped. -/
def Con.Down (c : Con) : Prop := c.closed = true ∧ c.worker.Stopped

/-- Workers and calls are numbered as they begin; `version` counts the changes
of `connections`, and `returned` notes that a `close` call is over. -/
structure Sys where
  cons : Nat → Con := fun _ => {}
  next : Nat := 0
  version : Nat := 0
  spawnLock : ReentrantLock Nat := {}
  closed : Bool := false
  lockReleased : Bool := false
  returned : Bool := false
  calls : Nat := 0
  pc : Nat → Pc := fun _ => .idle

/-- The steps of the calls `c` and of the workers `k`. -/
inductive Label where
  | enter (k : Nat)
  | leave (k : Nat)
  | getConnection
  | lockSpawn (c : Nat)
  | spawn (c : Nat)
  | spawnEnds (c : Nat) (ok : Bool)
  | register (c : Nat)
  | returnCon (c : Nat)
  | close
  | mark (c : Nat)
  | walk (c : Nat)
  /-- What `toList()` has found. -/
  | snapshot (c : Nat) (order : List Nat)
  | next (c : Nat)
  | conMark (c : Nat)
  | stop (c : Nat)
  | remove (c : Nat)
  | rtClose (c : Nat)
  | unlock (c : Nat)
  deriving DecidableEq

namespace Sys

/-- The call goes on at `p`. -/
def goto (s : Sys) (c : Nat) (p : Pc) : Sys := { s with pc := Function.update s.pc c p }

/-- A new call. -/
def begin (s : Sys) (p : Pc) : Sys := { s with calls := s.calls + 1 }.goto s.calls p

/-- Another state of a connection. -/
def setCon (s : Sys) (k : Nat) (c : Con) : Sys := { s with cons := Function.update s.cons k c }

/-- Another state of a connection's worker. -/
def setWorker (s : Sys) (k : Nat) (w : SqliteWorker) : Sys := s.setCon k { s.cons k with worker := w }

/-- The connections in the set. -/
def listed (s : Sys) : List Nat := (List.range s.next).filter fun k => (s.cons k).listed

end Sys

/-- One step; none where the call or the worker is not there. -/
def step (s : Sys) : Label → Option Sys
  | .enter k => if (s.cons k).listed then (s.cons k).worker.enter.map (s.setWorker k) else none
  | .leave k => (s.cons k).worker.leave.map (s.setWorker k)
  | .getConnection => some (s.begin (if s.closed then .done else .checked))
  | .lockSpawn c => match s.pc c with
    | .checked => (s.spawnLock.acquire c).map fun l => { s with spawnLock := l }.goto c .locked
    | _ => none
  -- A worker's number is never used twice, so its entry is the blank one.
  | .spawn c => match s.pc c with
    | .locked => some ({ s with next := s.next + 1 }.goto c (.spawning s.next))
    | _ => none
  | .spawnEnds c ok => match s.pc c with
    | .spawning k =>
      if ok then some (s.goto c (.registering k))
      else
        some (({ s with spawnLock := s.spawnLock.release }.setCon k
          { worker := { closed := true }, closed := true }).goto c .done)
    | _ => none
  | .register c => match s.pc c with
    | .registering k =>
      some (({ s with version := s.version + 1 }.setCon k { s.cons k with listed := true }).goto c (.returning k))
    | _ => none
  | .returnCon c => match s.pc c with
    | .returning _ => some ({ s with spawnLock := s.spawnLock.release }.goto c .done)
    | _ => none
  | .close =>
    if s.closed then some ({ s with returned := true }.begin .done) else some (s.begin .marking)
  | .mark c => match s.pc c with
    | .marking => some ({ s with closed := true }.goto c .marked)
    | _ => none
  | .walk c => match s.pc c with
    | .marked => some (s.goto c (.walking s.version))
    | _ => none
  -- The walk is exact when nobody changed the set meanwhile; else it may have
  -- missed any of the connections.
  | .snapshot c order => match s.pc c with
    | .walking v =>
      if (∀ k ∈ order, k < s.next) ∧ (v = s.version → order.Perm s.listed) then some (s.goto c (.closing order))
      else none
    | _ => none
  | .next c => match s.pc c with
    | .closing (k :: rest) => some (s.goto c (if (s.cons k).closed then .closing rest else .conMarking k rest))
    | _ => none
  | .conMark c => match s.pc c with
    | .conMarking k rest => some ((s.setCon k { s.cons k with closed := true }).goto c (.stopping k rest))
    | _ => none
  | .stop c => match s.pc c with
    | .stopping k rest => match (s.cons k).worker.stop .returns with
      | some (w, _) => some ((s.setWorker k w).goto c (.removing k rest))
      | none => none
    | _ => none
  | .remove c => match s.pc c with
    | .removing k rest =>
      some (({ s with version := s.version + 1 }.setCon k { s.cons k with listed := false }).goto c (.closing rest))
    | _ => none
  -- Whether `rt.close()` throws or not, the `finally` block comes next.
  | .rtClose c => match s.pc c with
    | .closing [] => some (s.goto c .unlocking)
    | _ => none
  | .unlock c => match s.pc c with
    | .unlocking => some ({ s with lockReleased := true, returned := true }.goto c .done)
    | _ => none

/-- Once a `close` has returned, no connection is open and no worker runs. -/
def Safe (s : Sys) : Prop := s.returned = true → ∀ k < s.next, (s.cons k).Down

/-- No connection is handed out behind a `close`, and no worker spawned behind the owner lock. -/
def NotLate (s : Sys) : Label → Prop
  | .returnCon c => ∀ k, s.pc c = .returning k → s.returned = false
  | .spawn c => s.pc c = .locked → s.lockReleased = false
  | _ => True

/-- A `close` begins when no other is under way, and walks the set when every
`getConnection` past its check has returned. -/
def NoOverlap (s : Sys) : Label → Prop
  | .close => ∀ c < s.calls, (s.pc c).inClose = false
  | .walk _ => ∀ c < s.calls, (s.pc c).inGet = false
  | _ => True

/-! ## The invariant -/

/-- No `getConnection` is past its check. -/
def Still (s : Sys) : Prop := ∀ c, (s.pc c).inGet = false

/-- Nothing runs, and nothing comes any more. -/
def Over (s : Sys) : Prop := Still s ∧ ∀ k < s.next, (s.cons k).Down

/-- What a `close` call knows where it is. -/
def Pc.Knows (s : Sys) : Pc → Prop
  | .walking v => Still s ∧ v = s.version
  | .closing rest => Still s ∧ ∀ j < s.next, (s.cons j).Down ∨ j ∈ rest
  | .conMarking k rest => Still s ∧ ∀ j < s.next, (s.cons j).Down ∨ j = k ∨ j ∈ rest
  | .stopping k rest => (s.cons k).closed = true ∧ Still s ∧ ∀ j < s.next, (s.cons j).Down ∨ j = k ∨ j ∈ rest
  | .removing k rest => (s.cons k).Down ∧ Still s ∧ ∀ j < s.next, (s.cons j).Down ∨ j ∈ rest
  | .unlocking => Over s
  | _ => True

/-- What holds under `spawnLock` in every run: who closes, and where each worker is known. -/
structure Inv (s : Sys) : Prop where
  fresh : ∀ c, s.calls ≤ c → s.pc c = .idle
  one : ∀ c d, (s.pc c).inClose = true → (s.pc d).inClose = true → c = d
  unset : ∀ c, s.pc c = .marking → s.closed = false
  past : ∀ c, (s.pc c).past = true → s.closed = true
  ends : s.closed = true → (∃ c, (s.pc c).past = true) ∨ Over s
  /-- Every worker is down, or its connection in the set or on its way there. -/
  home : ∀ k < s.next, (s.cons k).Down ∨ (s.cons k).listed = true ∨
    ∃ c, s.pc c = .spawning k ∨ s.pc c = .registering k
  shut : ∀ k, (s.cons k).closed = true → (s.cons k).Down ∨ ∃ c rest, s.pc c = .stopping k rest
  knows : ∀ c, (s.pc c).Knows s
  ended : s.lockReleased = true ∨ s.returned = true → s.closed = true ∧ Over s

theorem inv_start : Inv {} where
  fresh _ _ := rfl
  one _ _ h := by cases h
  unset _ h := by cases h
  past _ h := by cases h
  ends h := by cases h
  home k hk := absurd hk (Nat.not_lt_zero k)
  shut _ h := by cases h
  knows _ := trivial
  ended h := by rcases h with h | h <;> cases h

theorem Pc.inClose_of_past {p : Pc} (h : p.past = true) : p.inClose = true := by
  cases p <;> first | exact h | rfl

section
variable {s s' : Sys} {c : Nat} {p : Pc}

/-- Where nothing comes any more, nothing comes behind a step either. -/
theorem Still.mono (hs : Still s) (hpc : s'.pc = Function.update s.pc c p)
    (hget : p.inGet = true → (s.pc c).inGet = true) : Still s' := by
  intro d
  rw [hpc]
  by_cases hdc : d = c
  · subst hdc
    rw [Function.update_self]
    cases hp : p.inGet with
    | false => rfl
    | true => rw [hs d] at hget; exact (hget hp).symm
  · rw [Function.update_of_ne hdc]; exact hs d

/-- What a call knows where it is. -/
theorem Inv.knows_at {s : Sys} {c : Nat} {p : Pc} (hi : Inv s) (hpc : s.pc c = p) : p.Knows s :=
  hpc ▸ hi.knows c

/-- Knowledge of another call. -/
theorem Pc.Knows.mono {q : Pc} (hk : q.Knows s) (hstill : Still s → Still s') (hnext : Still s → s'.next = s.next)
    (hver : ∀ v, q = .walking v → Still s → s'.version = s.version)
    (hdown : ∀ k, (s.cons k).Down → (s'.cons k).Down)
    (hclosed : ∀ k, (s.cons k).closed = true → (s'.cons k).closed = true) : q.Knows s' := by
  cases q with
  | walking v => exact ⟨hstill hk.1, hk.2.trans (hver v rfl hk.1).symm⟩
  | closing rest => exact ⟨hstill hk.1, fun j hj => (hk.2 j (hnext hk.1 ▸ hj)).imp_left (hdown j)⟩
  | conMarking k rest => exact ⟨hstill hk.1, fun j hj => (hk.2 j (hnext hk.1 ▸ hj)).imp_left (hdown j)⟩
  | stopping k rest =>
    exact ⟨hclosed k hk.1, hstill hk.2.1, fun j hj => (hk.2.2 j (hnext hk.2.1 ▸ hj)).imp_left (hdown j)⟩
  | removing k rest =>
    exact ⟨hdown k hk.1, hstill hk.2.1, fun j hj => (hk.2.2 j (hnext hk.2.1 ▸ hj)).imp_left (hdown j)⟩
  | unlocking => exact ⟨hstill hk.1, fun j hj => hdown j (hk.2 j (hnext hk.1 ▸ hj))⟩
  | idle | checked | locked | spawning _ | registering _ | returning _ | marking | marked | done => trivial

/-- What a step of the call `c` has to show: the workers that were down stay
so, and nobody new comes past the check once the flag is set. -/
structure Moves (s s' : Sys) (c : Nat) (p : Pc) : Prop where
  pc : s'.pc = Function.update s.pc c p
  calls : s.calls ≤ s'.calls
  begun : c < s'.calls
  get : p.inGet = true → (s.pc c).inGet = true ∨ s.closed = false
  close : p.inClose = true → (s.pc c).inClose = true ∨ ∀ d, (s.pc d).inClose = false
  next : s'.next = s.next ∨ (s.pc c).inGet = true
  version : s'.version = s.version ∨ (s.pc c).inGet = true ∨ (s.pc c).inClose = true
  down : ∀ k, (s.cons k).Down → (s'.cons k).Down
  shut : ∀ k, (s.cons k).closed = true → (s'.cons k).closed = true

/-- The flag and what is read off it. -/
structure Flags (s s' : Sys) (c : Nat) (p : Pc) : Prop where
  closed : s'.closed = s.closed ∨ (s'.closed = true ∧ (s.pc c).inClose = true)
  unset : p = .marking → s'.closed = false
  past : p.past = true → s'.closed = true
  ends : s'.closed = true → p.past = true ∨ Over s' ∨ (s.closed = true ∧ (s.pc c).past = false)
  ended : s'.lockReleased = true ∨ s'.returned = true →
    (s.lockReleased = true ∨ s.returned = true) ∨ (s'.closed = true ∧ Over s')

/-- The entries of the workers. -/
structure Entries (s s' : Sys) (c : Nat) (p : Pc) : Prop where
  home : ∀ k < s'.next, ((s'.cons k).Down ∨ (s'.cons k).listed = true ∨ p = .spawning k ∨ p = .registering k) ∨
    (k < s.next ∧ ((s.cons k).listed = true → (s'.cons k).listed = true) ∧ s.pc c ≠ .spawning k ∧
      s.pc c ≠ .registering k)
  shut : ∀ k, (s'.cons k).closed = true → ((s'.cons k).Down ∨ ∃ rest, p = .stopping k rest) ∨
    ((s.cons k).closed = true ∧ ∀ rest, s.pc c ≠ .stopping k rest)

theorem Moves.still (hm : Moves s s' c p) (hc : s.closed = true) (hs : Still s) : Still s' := by
  refine hs.mono hm.pc fun hp => ?_
  rcases hm.get hp with h | h
  · exact h
  · rw [hc] at h; cases h

theorem Moves.next_eq (hm : Moves s s' c p) (hs : Still s) : s'.next = s.next := by
  rcases hm.next with h | h
  · exact h
  · rw [hs c] at h; cases h

theorem Moves.isOver (hm : Moves s s' c p) (hc : s.closed = true) (ho : Over s) : Over s' :=
  ⟨hm.still hc ho.1, fun k hk => hm.down k (ho.2 k (hm.next_eq ho.1 ▸ hk))⟩

theorem Inv.advance (hi : Inv s) (hm : Moves s s' c p) (hf : Flags s s' c p) (he : Entries s s' c p)
    (hp : p.Knows s') : Inv s' := by
  have same : s'.pc c = p := by rw [hm.pc, Function.update_self]
  have other : ∀ d, d ≠ c → s'.pc d = s.pc d := fun d hd => by rw [hm.pc, Function.update_of_ne hd]
  have hclosed : s.closed = true → s'.closed = true := fun h => by
    rcases hf.closed with h' | h'
    · rw [h', h]
    · exact h'.1
  refine ⟨fun d hd => ?_, fun a b ha hb => ?_, fun d hd => ?_, fun d hd => ?_, fun h => ?_, fun k hk => ?_,
    fun k hk => ?_, fun d => ?_, fun h => ?_⟩
  · have hdc : d ≠ c := fun h => absurd hm.begun (by omega)
    rw [other d hdc]
    exact hi.fresh d (Nat.le_trans hm.calls hd)
  · by_cases hac : a = c
    · by_cases hbc : b = c
      · rw [hac, hbc]
      · rw [hac, same] at ha
        rw [other b hbc] at hb
        rcases hm.close ha with h | h
        · exact hac.trans (hi.one c b h hb)
        · rw [h b] at hb; cases hb
    · rw [other a hac] at ha
      by_cases hbc : b = c
      · rw [hbc, same] at hb
        rcases hm.close hb with h | h
        · exact (hi.one a c ha h).trans hbc.symm
        · rw [h a] at ha; cases ha
      · rw [other b hbc] at hb
        exact hi.one a b ha hb
  · by_cases hdc : d = c
    · rw [hdc, same] at hd; exact hf.unset hd
    · rw [other d hdc] at hd
      rcases hf.closed with h | ⟨-, h⟩
      · rw [h]; exact hi.unset d hd
      · exact absurd (hi.one d c (by rw [hd]; rfl) h) hdc
  · by_cases hdc : d = c
    · rw [hdc, same] at hd; exact hf.past hd
    · rw [other d hdc] at hd; exact hclosed (hi.past d hd)
  · rcases hf.ends h with h | h | ⟨h, hnot⟩
    · exact .inl ⟨c, by rw [same]; exact h⟩
    · exact .inr h
    · rcases hi.ends h with ⟨d, hd⟩ | ho
      · have hdc : d ≠ c := fun hdc => by rw [hdc, hnot] at hd; cases hd
        exact .inl ⟨d, by rw [other d hdc]; exact hd⟩
      · exact .inr (hm.isOver h ho)
  · rcases he.home k hk with (h | h | h) | ⟨hlt, hl, h1, h2⟩
    · exact .inl h
    · exact .inr (.inl h)
    · exact .inr (.inr ⟨c, by rw [same]; exact h⟩)
    · rcases hi.home k hlt with h | h | ⟨d, h⟩
      · exact .inl (hm.down k h)
      · exact .inr (.inl (hl h))
      · have hdc : d ≠ c := fun hdc => by rw [hdc] at h; exact h.elim h1 h2
        exact .inr (.inr ⟨d, by rw [other d hdc]; exact h⟩)
  · rcases he.shut k hk with (h | ⟨rest, h⟩) | ⟨h, hnot⟩
    · exact .inl h
    · exact .inr ⟨c, rest, same.trans h⟩
    · rcases hi.shut k h with h | ⟨d, rest, h⟩
      · exact .inl (hm.down k h)
      · have hdc : d ≠ c := fun hdc => hnot rest (hdc ▸ h)
        exact .inr ⟨d, rest, (other d hdc).trans h⟩
  · by_cases hdc : d = c
    · rw [hdc, same]; exact hp
    · rw [other d hdc]
      -- Only a call behind the flag knows anything, and the others cannot get past the check then.
      cases hd : (s.pc d).past with
      | false => generalize s.pc d = q at hd ⊢; cases q <;> trivial
      | true =>
        have hc := hi.past d hd
        refine (hi.knows d).mono (hm.still hc) hm.next_eq (fun v hv hs => ?_) hm.down hm.shut
        rcases hm.version with h | h | h
        · exact h
        · rw [hs c] at h; cases h
        · exact absurd (hi.one d c (Pc.inClose_of_past hd) h) hdc
  · rcases hf.ended h with h | h
    · obtain ⟨hc, ho⟩ := hi.ended h
      exact ⟨hclosed hc, hm.isOver hc ho⟩
    · exact h

end

/-! ## The steps -/

theorem setCon_self {s : Sys} {k : Nat} {e : Con} : (s.setCon k e).cons k = e := Function.update_self ..

theorem setCon_of_ne {s : Sys} {j k : Nat} {e : Con} (h : j ≠ k) : (s.setCon k e).cons j = s.cons j :=
  Function.update_of_ne h ..

section
variable {s : Sys} {c : Nat}

theorem Inv.begun (hi : Inv s) (h : s.pc c ≠ .idle) : c < s.calls := by
  by_contra hlt
  exact h (hi.fresh c (Nat.le_of_not_lt hlt))

/-- No call of `getConnection` is past its check, by those there are. -/
theorem Inv.still (hi : Inv s) (h : ∀ c < s.calls, (s.pc c).inGet = false) : Still s := by
  intro c
  by_cases hc : c < s.calls
  · exact h c hc
  · rw [hi.fresh c (Nat.le_of_not_lt hc)]; rfl

theorem Inv.alone (hi : Inv s) (h : ∀ c < s.calls, (s.pc c).inClose = false) (c : Nat) :
    (s.pc c).inClose = false := by
  by_cases hc : c < s.calls
  · exact h c hc
  · rw [hi.fresh c (Nat.le_of_not_lt hc)]; rfl

theorem down_setCon {k : Nat} {e : Con} (h : (s.cons k).Down → e.Down) (j : Nat) (hj : (s.cons j).Down) :
    ((s.setCon k e).cons j).Down := by
  by_cases hjk : j = k
  · subst hjk; rw [setCon_self]; exact h hj
  · rw [setCon_of_ne hjk]; exact hj

/-- A statement begins or ends. -/
theorem Inv.setWorker (hi : Inv s) {k : Nat} {w : SqliteWorker} (h : (s.cons k).worker.Stopped → w.Stopped) :
    Inv (s.setWorker k w) := by
  have hdown := down_setCon (s := s) (k := k) (e := { s.cons k with worker := w }) fun hd => ⟨hd.1, h hd.2⟩
  have hlisted : ∀ j, ((s.setWorker k w).cons j).listed = (s.cons j).listed := fun j => by
    by_cases hjk : j = k
    · subst hjk; rw [Sys.setWorker, setCon_self]
    · rw [Sys.setWorker, setCon_of_ne hjk]
  have hclosed : ∀ j, ((s.setWorker k w).cons j).closed = (s.cons j).closed := fun j => by
    by_cases hjk : j = k
    · subst hjk; rw [Sys.setWorker, setCon_self]
    · rw [Sys.setWorker, setCon_of_ne hjk]
  have hover : Over s → Over (s.setWorker k w) := fun ho => ⟨ho.1, fun j hj => hdown j (ho.2 j hj)⟩
  refine ⟨hi.fresh, hi.one, hi.unset, hi.past, fun hc => (hi.ends hc).imp_right hover, fun j hj => ?_,
    fun j hj => ?_, fun d => ?_, fun he => ⟨(hi.ended he).1, hover (hi.ended he).2⟩⟩
  · rw [hlisted]
    exact (hi.home j hj).imp_left (hdown j)
  · rw [hclosed] at hj
    exact (hi.shut j hj).imp_left (hdown j)
  · exact (hi.knows d).mono id (fun _ => rfl) (fun _ _ _ => rfl) hdown fun j hj => (hclosed j).trans hj

theorem moves_goto (hi : Inv s) (hne : s.pc c ≠ .idle) {p : Pc} (hget : p.inGet = true → (s.pc c).inGet = true)
    (hclose : p.inClose = true → (s.pc c).inClose = true) : Moves s (s.goto c p) c p where
  pc := rfl
  calls := Nat.le_refl _
  begun := hi.begun hne
  get h := .inl (hget h)
  close h := .inl (hclose h)
  next := .inl rfl
  version := .inl rfl
  down _ h := h
  shut _ h := h

/-- A call goes on and changes nothing else. -/
theorem Inv.goto (hi : Inv s) {p : Pc} (hne : s.pc c ≠ .idle) (hget : p.inGet = true → (s.pc c).inGet = true)
    (hpast : p.inClose = true → (s.pc c).past = true) (hleft : (s.pc c).past = true → p.past = true)
    (hmarking : p ≠ .marking)
    (hhome : ∀ k, s.pc c = .spawning k ∨ s.pc c = .registering k → p = .spawning k ∨ p = .registering k)
    (hshut : ∀ k rest, s.pc c ≠ .stopping k rest) (hk : p.Knows s) : Inv (s.goto c p) := by
  have hm := moves_goto hi hne hget fun h => Pc.inClose_of_past (hpast h)
  have hclosed : p.past = true → s.closed = true := fun h => hi.past c (hpast (Pc.inClose_of_past h))
  refine hi.advance hm ⟨.inl rfl, fun h => absurd h hmarking, hclosed, fun h => ?_, .inl⟩
    ⟨fun k hlt => ?_, fun k h => .inr ⟨h, hshut k⟩⟩ ?_
  · cases hp : (s.pc c).past with
    | true => exact .inl (hleft hp)
    | false => exact .inr (.inr ⟨h, rfl⟩)
  · by_cases hsp : s.pc c = .spawning k ∨ s.pc c = .registering k
    · exact .inl (.inr (.inr (hhome k hsp)))
    · exact .inr ⟨hlt, id, fun h => hsp (.inl h), fun h => hsp (.inr h)⟩
  · cases hp : p.past with
    | false => generalize p = q at hp ⊢; cases q <;> trivial
    | true =>
      have hc := hclosed hp
      exact hk.mono (hm.still hc) hm.next_eq (fun _ _ _ => rfl) hm.down hm.shut

/-- A call begins. -/
theorem Inv.begin (hi : Inv s) {p : Pc} (hget : p.inGet = true → s.closed = false)
    (hclose : p.inClose = true → ∀ d, (s.pc d).inClose = false) (hmarking : p = .marking → s.closed = false)
    (hpast : p.past = false) : Inv (s.begin p) := by
  have hidle := hi.fresh s.calls (Nat.le_refl _)
  have hm : Moves s (s.begin p) s.calls p :=
    { pc := rfl, calls := Nat.le_succ _, begun := Nat.lt_succ_self _, get := fun h => .inr (hget h)
      close := fun h => .inr (hclose h), next := .inl rfl, version := .inl rfl, down := fun _ h => h
      shut := fun _ h => h }
  refine hi.advance hm ⟨.inl rfl, hmarking, fun h => ?_, fun h => ?_, .inl⟩
    ⟨fun k hlt => .inr ⟨hlt, id, ?_, ?_⟩, fun k h => .inr ⟨h, fun rest => ?_⟩⟩ ?_
  · rw [hpast] at h; cases h
  · exact .inr (.inr ⟨h, by rw [hidle]; rfl⟩)
  · rw [hidle]; nofun
  · rw [hidle]; nofun
  · rw [hidle]; nofun
  · generalize p = q at hpast ⊢
    cases q <;> trivial

/-- A worker's thread is spawned. -/
theorem Inv.spawn (hi : Inv s) (hpc : s.pc c = .locked) :
    Inv ({ s with next := s.next + 1 }.goto c (.spawning s.next)) := by
  have hin : (s.pc c).inGet = true := by rw [hpc]; rfl
  have hm : Moves s ({ s with next := s.next + 1 }.goto c (.spawning s.next)) c (.spawning s.next) :=
    { moves_goto hi (by rw [hpc]; decide) (p := .spawning s.next) (fun _ => hin) nofun with next := .inr hin }
  refine hi.advance hm ⟨.inl rfl, nofun, nofun, fun h => ?_, .inl⟩
    ⟨fun k hlt => ?_, fun k h => .inr ⟨h, fun rest => ?_⟩⟩ trivial
  · exact .inr (.inr ⟨h, by rw [hpc]; rfl⟩)
  · rcases Nat.lt_succ_iff_lt_or_eq.mp hlt with h | h
    · exact .inr ⟨h, id, by rw [hpc]; nofun, by rw [hpc]; nofun⟩
    · exact .inl (.inr (.inr (.inl (by rw [h]))))
  · rw [hpc]; nofun

/-- An entry of `getConnection`'s own worker changes. -/
theorem Inv.setOwn (hi : Inv s) {k : Nat} {e : Con} {p : Pc} {version : Nat} {spawnLock : ReentrantLock Nat}
    (hpc : s.pc c = .spawning k ∨ s.pc c = .registering k)
    (he : e.Down ∨ e.listed = true ∧ e.closed = (s.cons k).closed)
    (hdown : (s.cons k).Down → e.Down) (hclosed : (s.cons k).closed = true → e.closed = true)
    (hclose : p.inClose = false) (hpast : p.past = false) (hp : p = .done ∨ p = .returning k) :
    Inv (({ s with version, spawnLock }.setCon k e).goto c p) := by
  have hin : (s.pc c).inGet = true := by rcases hpc with h | h <;> rw [h] <;> rfl
  have hout : (s.pc c).past = false := by rcases hpc with h | h <;> rw [h] <;> rfl
  have hne : s.pc c ≠ .idle := by rcases hpc with h | h <;> rw [h] <;> nofun
  have hstop : ∀ j rest, s.pc c ≠ .stopping j rest := fun j rest => by
    rcases hpc with h | h <;> rw [h] <;> nofun
  have hm : Moves s (({ s with version, spawnLock }.setCon k e).goto c p) c p :=
    { pc := rfl, calls := Nat.le_refl _, begun := hi.begun hne, get := fun _ => .inl hin
      close := fun h => by rw [hclose] at h; cases h
      next := .inl rfl, version := .inr (.inl hin), down := down_setCon (s := s) hdown
      shut := fun j hj => by
        by_cases hjk : j = k
        · subst hjk; exact setCon_self (s := s) ▸ hclosed hj
        · exact (setCon_of_ne (s := s) hjk).symm ▸ hj }
  refine hi.advance hm ⟨.inl rfl, fun h => ?_, fun h => ?_, fun h => .inr (.inr ⟨h, hout⟩), .inl⟩
    ⟨fun j hlt => ?_, fun j hj => ?_⟩ ?_
  · rw [h] at hclose; cases hclose
  · rw [hpast] at h; cases h
  · by_cases hjk : j = k
    · subst hjk
      have hself : (({ s with version, spawnLock }.setCon j e).goto c p).cons j = e := setCon_self
      rw [hself]
      exact .inl (he.imp_right fun h => .inl h.1)
    · have hother : (({ s with version, spawnLock }.setCon k e).goto c p).cons j = s.cons j := setCon_of_ne hjk
      refine .inr ⟨hlt, fun h => hother ▸ h, fun h => ?_, fun h => ?_⟩
      · rcases hpc with h' | h' <;> rw [h'] at h <;> cases h
        exact hjk rfl
      · rcases hpc with h' | h' <;> rw [h'] at h <;> cases h
        exact hjk rfl
  · by_cases hjk : j = k
    · subst hjk
      have hself : (({ s with version, spawnLock }.setCon j e).goto c p).cons j = e := setCon_self
      rw [hself] at hj ⊢
      rcases he with h | ⟨-, h⟩
      · exact .inl (.inl h)
      · exact .inr ⟨h ▸ hj, hstop j⟩
    · have hother : (({ s with version, spawnLock }.setCon k e).goto c p).cons j = s.cons j := setCon_of_ne hjk
      rw [hother] at hj
      exact .inr ⟨hj, hstop j⟩
  · rcases hp with rfl | rfl <;> trivial

/-- `closed = true`. -/
theorem Inv.mark (hi : Inv s) (hpc : s.pc c = .marking) : Inv ({ s with closed := true }.goto c .marked) := by
  have hm := moves_goto hi (p := .marked) (by rw [hpc]; nofun) nofun fun _ => by rw [hpc]; rfl
  refine hi.advance { hm with }
    ⟨.inr ⟨rfl, by rw [hpc]; rfl⟩, nofun, fun _ => rfl, fun _ => .inl rfl, .inl⟩
    ⟨fun k hlt => .inr ⟨hlt, id, ?_, ?_⟩, fun k h => .inr ⟨h, fun rest => ?_⟩⟩ trivial
  · rw [hpc]; nofun
  · rw [hpc]; nofun
  · rw [hpc]; nofun

/-- The walk has found every connection that is not down. -/
theorem Inv.snapshot (hi : Inv s) {v : Nat} {order : List Nat} (hpc : s.pc c = .walking v)
    (horder : v = s.version → order.Perm s.listed) : Inv (s.goto c (.closing order)) := by
  obtain ⟨hstill, hv⟩ : Still s ∧ v = s.version := hi.knows_at hpc
  refine hi.goto (by rw [hpc]; nofun) nofun (fun _ => by rw [hpc]; rfl) (fun _ => rfl) nofun (fun k h => ?_)
    (fun k rest h => ?_) ⟨hstill, fun j hj => ?_⟩
  · rw [hpc] at h; rcases h with h | h <;> cases h
  · rw [hpc] at h; cases h
  · rcases hi.home j hj with h | h | ⟨d, h⟩
    · exact .inl h
    · exact .inr ((horder hv).mem_iff.mpr (List.mem_filter.mpr ⟨List.mem_range.mpr hj, h⟩))
    · have hd := hstill d
      rcases h with h | h <;> rw [h] at hd <;> cases hd

/-- A connection the walk finds closed is down: no other call is in its `close`. -/
theorem Inv.down_of_closed (hi : Inv s) (hin : (s.pc c).inClose = true) (hpc : ∀ k rest, s.pc c ≠ .stopping k rest)
    {k : Nat} (hk : (s.cons k).closed = true) : (s.cons k).Down := by
  rcases hi.shut k hk with h | ⟨d, rest, h⟩
  · exact h
  · have hd : (s.pc d).inClose = true := by rw [h]; rfl
    have hdc := hi.one d c hd hin
    exact absurd (hdc ▸ h) (hpc k rest)

theorem Inv.next (hi : Inv s) {k : Nat} {rest : List Nat} (hpc : s.pc c = .closing (k :: rest)) :
    Inv (s.goto c (if (s.cons k).closed then .closing rest else .conMarking k rest)) := by
  obtain ⟨hstill, hall⟩ : Still s ∧ ∀ j < s.next, (s.cons j).Down ∨ j ∈ k :: rest := hi.knows_at hpc
  have hne : s.pc c ≠ .idle := by rw [hpc]; nofun
  have hin : (s.pc c).past = true := by rw [hpc]; rfl
  have hnot : ∀ j l, s.pc c ≠ .stopping j l := fun j l => by rw [hpc]; nofun
  have hget : ∀ j, ¬ (s.pc c = .spawning j ∨ s.pc c = .registering j) := fun j h => by
    rw [hpc] at h; rcases h with h | h <;> cases h
  split
  · next hk =>
    refine hi.goto hne nofun (fun _ => hin) (fun _ => rfl) nofun
      (fun j h => absurd h (hget j)) hnot ⟨hstill, fun j hj => ?_⟩
    rcases hall j hj with h | h
    · exact .inl h
    · rcases List.mem_cons.mp h with rfl | h
      · exact .inl (hi.down_of_closed (Pc.inClose_of_past hin) hnot hk)
      · exact .inr h
  · exact hi.goto hne nofun (fun _ => hin) (fun _ => rfl) nofun
      (fun j h => absurd h (hget j)) hnot ⟨hstill, fun j hj => (hall j hj).imp_right List.mem_cons.mp⟩

/-- `close` changes the entry of the connection it is at. -/
theorem Inv.setAt (hi : Inv s) {k : Nat} {e : Con} {p : Pc} {version : Nat}
    (hpast : (s.pc c).past = true) (hp : p.past = true) (hget : p.inGet = false) (hmarking : p ≠ .marking)
    (hdown : (s.cons k).Down → e.Down) (hclosed : (s.cons k).closed = true → e.closed = true)
    (hlisted : e.Down ∨ e.listed = (s.cons k).listed)
    (hshut : e.Down ∨ ∃ rest, p = .stopping k rest) (hother : ∀ j rest, j ≠ k → s.pc c ≠ .stopping j rest)
    (hk : p.Knows (({ s with version }.setCon k e).goto c p)) : Inv (({ s with version }.setCon k e).goto c p) := by
  have hin := Pc.inClose_of_past hpast
  have hne : s.pc c ≠ .idle := fun h => by rw [h] at hpast; cases hpast
  have hgetter : ∀ j, s.pc c ≠ .spawning j ∧ s.pc c ≠ .registering j := fun j =>
    ⟨fun h => (by rw [h] at hpast; cases hpast), fun h => (by rw [h] at hpast; cases hpast)⟩
  have self : (({ s with version }.setCon k e).goto c p).cons k = e := setCon_self
  have others : ∀ j, j ≠ k → (({ s with version }.setCon k e).goto c p).cons j = s.cons j :=
    fun j hj => setCon_of_ne hj
  have hm : Moves s (({ s with version }.setCon k e).goto c p) c p :=
    { pc := rfl, calls := Nat.le_refl _, begun := hi.begun hne, get := fun h => by rw [hget] at h; cases h
      close := fun _ => .inl hin, next := .inl rfl, version := .inr (.inr hin), down := down_setCon (s := s) hdown
      shut := fun j hj => by
        by_cases hjk : j = k
        · rw [hjk, self]; exact hclosed (hjk ▸ hj)
        · rw [others j hjk]; exact hj }
  refine hi.advance hm ⟨.inl rfl, fun h => absurd h hmarking, fun _ => hi.past c hpast, fun _ => .inl hp, .inl⟩
    ⟨fun j hlt => ?_, fun j hj => ?_⟩ hk
  · by_cases hjk : j = k
    · rw [hjk, self]
      rcases hlisted with h | h
      · exact .inl (.inl h)
      · exact .inr ⟨hjk ▸ hlt, fun hl => h.trans hl, hgetter k⟩
    · rw [others j hjk]
      exact .inr ⟨hlt, id, hgetter j⟩
  · by_cases hjk : j = k
    · rw [hjk, self]; exact .inl hshut
    · rw [others j hjk] at hj
      exact .inr ⟨hj, fun rest => hother j rest hjk⟩

theorem Inv.conMark (hi : Inv s) {k : Nat} {rest : List Nat} (hpc : s.pc c = .conMarking k rest) :
    Inv ((s.setCon k { s.cons k with closed := true }).goto c (.stopping k rest)) := by
  obtain ⟨hstill, hall⟩ : Still s ∧ ∀ j < s.next, (s.cons j).Down ∨ j = k ∨ j ∈ rest := hi.knows_at hpc
  have hdown : (s.cons k).Down → Con.Down { s.cons k with closed := true } := fun h => ⟨rfl, h.2⟩
  refine hi.setAt (by rw [hpc]; rfl) rfl rfl nofun hdown (fun _ => rfl) (.inr rfl) (.inr ⟨rest, rfl⟩)
    (fun j l _ => by rw [hpc]; nofun) ⟨?_, ?_, fun j hj => (hall j hj).imp_left (down_setCon hdown j)⟩
  · show ((s.setCon k _).cons k).closed = true
    rw [setCon_self]
  · exact hstill.mono (c := c) rfl nofun

theorem Inv.stop (hi : Inv s) {k : Nat} {rest : List Nat} {w : SqliteWorker} {ok : Bool}
    (hpc : s.pc c = .stopping k rest) (hw : (s.cons k).worker.stop .returns = some (w, ok)) :
    Inv ((s.setWorker k w).goto c (.removing k rest)) := by
  obtain ⟨hclosed, hstill, hall⟩ :
      (s.cons k).closed = true ∧ Still s ∧ ∀ j < s.next, (s.cons j).Down ∨ j = k ∨ j ∈ rest :=
    hi.knows_at hpc
  have hok : ok = true := by
    simp only [SqliteWorker.stop] at hw
    split at hw <;> cases hw
    rfl
  have hk : Con.Down { s.cons k with worker := w } := ⟨hclosed, SqliteWorker.stop_returned (hok ▸ hw)⟩
  refine hi.setAt (by rw [hpc]; rfl) rfl rfl (fun h => by cases h) (fun _ => hk) id (.inl hk) (.inl hk)
    (fun j l hj h => ?_) ⟨?_, hstill.mono (c := c) rfl (fun h => by cases h), fun j hj => ?_⟩
  · rw [hpc] at h
    cases h
    exact hj rfl
  · show ((s.setCon k _).cons k).Down
    rw [setCon_self]
    exact hk
  · rcases hall j hj with h | rfl | h
    · exact .inl (down_setCon (fun _ => hk) j h)
    · refine .inl ?_
      show ((s.setCon j _).cons j).Down
      rw [setCon_self]
      exact hk
    · exact .inr h

theorem Inv.remove (hi : Inv s) {k : Nat} {rest : List Nat} (hpc : s.pc c = .removing k rest) :
    Inv (({ s with version := s.version + 1 }.setCon k { s.cons k with listed := false }).goto c (.closing rest)) := by
  obtain ⟨hk, hstill, hall⟩ : (s.cons k).Down ∧ Still s ∧ ∀ j < s.next, (s.cons j).Down ∨ j ∈ rest :=
    hi.knows_at hpc
  have hk' : Con.Down { s.cons k with listed := false } := hk
  refine hi.setAt (by rw [hpc]; rfl) rfl rfl nofun (fun _ => hk') id (.inl hk') (.inl hk')
    (fun j l _ => by rw [hpc]; nofun) ⟨hstill.mono (c := c) rfl nofun, fun j hj => ?_⟩
  exact (hall j hj).imp_left (down_setCon (s := s) (fun _ => hk') j)

/-- The owner lock is given back, and the call is over. -/
theorem Inv.unlock (hi : Inv s) (hpc : s.pc c = .unlocking) :
    Inv ({ s with lockReleased := true, returned := true }.goto c .done) := by
  have ho : Over s := hi.knows_at hpc
  have hc : s.closed = true := hi.past c (by rw [hpc]; rfl)
  have hm := moves_goto hi (p := .done) (by rw [hpc]; nofun) nofun nofun
  have ho' : Over ({ s with lockReleased := true, returned := true }.goto c .done) := hm.isOver hc ho
  refine hi.advance { hm with } ⟨.inl rfl, nofun, nofun, fun _ => .inr (.inl ho'), fun _ => .inr ⟨hc, ho'⟩⟩
    ⟨fun k hlt => .inl (.inl (ho.2 k hlt)), fun k h => .inr ⟨h, fun rest => ?_⟩⟩ trivial
  rw [hpc]; nofun

/-- A `close` that finds the flag set, with no other under way. -/
theorem Inv.closeAgain (hi : Inv s) (hc : s.closed = true) (halone : ∀ d, (s.pc d).inClose = false) :
    Inv ({ s with returned := true }.begin .done) := by
  have ho : Over s := by
    rcases hi.ends hc with ⟨d, hd⟩ | ho
    · have := Pc.inClose_of_past hd
      rw [halone d] at this
      cases this
    · exact ho
  have hi' : Inv { s with returned := true } := { hi with ended := fun _ => ⟨hc, ho⟩ }
  exact hi'.begin nofun nofun nofun rfl

/-- Whatever call is next, the invariant stays. -/
theorem Inv.step (hi : Inv s) {l : Label} {s' : Sys} (ho : NoOverlap s l) (h : step s l = some s') : Inv s' := by
  cases l with
  | enter k =>
    simp only [DataSourceRace.step, Option.ite_none_right_eq_some] at h
    obtain ⟨w, hw, rfl⟩ := Option.map_eq_some_iff.mp h.2
    exact hi.setWorker fun hs => hs.enter hw
  | leave k =>
    obtain ⟨w, hw, rfl⟩ := Option.map_eq_some_iff.mp h
    exact hi.setWorker fun hs => hs.leave hw
  | getConnection =>
    cases h
    split
    · exact hi.begin nofun nofun nofun rfl
    · next hc => exact hi.begin (fun _ => eq_false_of_ne_true hc) nofun nofun rfl
  | lockSpawn c =>
    simp only [DataSourceRace.step] at h
    split at h
    · next hpc =>
      obtain ⟨l, -, rfl⟩ := Option.map_eq_some_iff.mp h
      have hi' := hi.goto (c := c) (p := .locked) (by rw [hpc]; nofun) (fun _ => by rw [hpc]; rfl) nofun
        (by rw [hpc]; nofun) nofun (by rw [hpc]; nofun) (by rw [hpc]; nofun) trivial
      exact { hi' with }
    · cases h
  | spawn c =>
    simp only [DataSourceRace.step] at h
    split at h <;> cases h
    next hpc => exact hi.spawn hpc
  | spawnEnds c ok =>
    simp only [DataSourceRace.step] at h
    split at h
    · next k hpc =>
      cases ok with
      | true =>
        cases h
        refine hi.goto (by rw [hpc]; nofun) (fun _ => by rw [hpc]; rfl) nofun (by rw [hpc]; nofun) nofun
          (fun j hj => ?_) (by rw [hpc]; nofun) trivial
        rw [hpc] at hj
        rcases hj with hj | hj <;> cases hj
        exact .inr rfl
      | false =>
        cases h
        have hdown : Con.Down { worker := { closed := true }, closed := true } := ⟨rfl, rfl, rfl⟩
        exact hi.setOwn (.inl hpc) (.inl hdown) (fun _ => hdown) (fun _ => rfl) rfl rfl (.inl rfl)
    · cases h
  | register c =>
    simp only [DataSourceRace.step] at h
    split at h <;> cases h
    next k hpc => exact hi.setOwn (.inr hpc) (.inr ⟨rfl, rfl⟩) id id rfl rfl (.inr rfl)
  | returnCon c =>
    simp only [DataSourceRace.step] at h
    split at h <;> cases h
    next k hpc =>
    have hi' := hi.goto (c := c) (p := .done) (by rw [hpc]; nofun) nofun nofun (by rw [hpc]; nofun) nofun
      (by rw [hpc]; nofun) (by rw [hpc]; nofun) trivial
    exact { hi' with }
  | close =>
    have halone := hi.alone ho
    simp only [DataSourceRace.step] at h
    split at h <;> cases h
    · next hc => exact hi.closeAgain hc halone
    · next hc => exact hi.begin nofun (fun _ => halone) (fun _ => eq_false_of_ne_true hc) rfl
  | mark c =>
    simp only [DataSourceRace.step] at h
    split at h <;> cases h
    next hpc => exact hi.mark hpc
  | walk c =>
    simp only [DataSourceRace.step] at h
    split at h <;> cases h
    next hpc =>
    exact hi.goto (by rw [hpc]; nofun) nofun (fun _ => by rw [hpc]; rfl) (fun _ => rfl) nofun (by rw [hpc]; nofun)
      (by rw [hpc]; nofun) ⟨hi.still ho, rfl⟩
  | snapshot c order =>
    simp only [DataSourceRace.step] at h
    split at h
    · next v hpc =>
      split at h <;> cases h
      next horder => exact hi.snapshot hpc horder.2
    · cases h
  | next c =>
    simp only [DataSourceRace.step] at h
    split at h <;> cases h
    next k rest hpc => exact hi.next hpc
  | conMark c =>
    simp only [DataSourceRace.step] at h
    split at h <;> cases h
    next k rest hpc => exact hi.conMark hpc
  | stop c =>
    simp only [DataSourceRace.step] at h
    split at h
    · next k rest hpc =>
      split at h <;> cases h
      next w ok hw => exact hi.stop hpc hw
    · cases h
  | remove c =>
    simp only [DataSourceRace.step] at h
    split at h <;> cases h
    next k rest hpc => exact hi.remove hpc
  | rtClose c =>
    simp only [DataSourceRace.step] at h
    split at h <;> cases h
    next hpc =>
    obtain ⟨hstill, hall⟩ : Still s ∧ ∀ j < s.next, (s.cons j).Down ∨ j ∈ [] := hi.knows_at hpc
    exact hi.goto (by rw [hpc]; nofun) nofun (fun _ => by rw [hpc]; rfl) (fun _ => rfl) nofun (by rw [hpc]; nofun)
      (by rw [hpc]; nofun) ⟨hstill, fun j hj => (hall j hj).resolve_right List.not_mem_nil⟩
  | unlock c =>
    simp only [DataSourceRace.step] at h
    split at h <;> cases h
    next hpc => exact hi.unlock hpc

theorem Inv.notLate (hi : Inv s) (l : Label) : NotLate s l := by
  cases l with
  | returnCon c =>
    intro k hpc
    cases hr : s.returned with
    | false => rfl
    | true =>
      have := (hi.ended (.inr hr)).2.1 c
      rw [hpc] at this
      cases this
  | spawn c =>
    intro hpc
    cases hr : s.lockReleased with
    | false => rfl
    | true =>
      have := (hi.ended (.inl hr)).2.1 c
      rw [hpc] at this
      cases this
  | _ => trivial

end

/-! ## Runs -/

/-- **Nothing is left behind a `close`** that no other `close` overlaps and no
`getConnection` was on its way past. -/
theorem close_leaves_nothing (labels : List Label) (h : EveryStep step NoOverlap {} labels) :
    EveryState step Safe {} labels ∧ EveryStep step NotLate {} labels :=
  ⟨everyState_of_invariant (fun _ _ _ hi ho hs => Inv.step hi ho hs) (fun _ hi hr => (hi.ended (.inr hr)).2.2)
      inv_start h,
    everyStep_of_invariant (fun _ _ _ hi ho hs => Inv.step hi ho hs) (fun _ l hi _ => hi.notLate l) inv_start h⟩

instance (s : Sys) : (l : Label) → Decidable (NoOverlap s l)
  | .close => inferInstanceAs (Decidable (∀ c < s.calls, (s.pc c).inClose = false))
  | .walk _ => inferInstanceAs (Decidable (∀ c < s.calls, (s.pc c).inGet = false))
  | .enter _ | .leave _ | .getConnection | .lockSpawn _ | .spawn _ | .spawnEnds _ _ | .register _ | .returnCon _
  | .mark _ | .snapshot _ _ | .next _ | .conMark _ | .stop _ | .remove _ | .rtClose _ | .unlock _ =>
    inferInstanceAs (Decidable True)

/-- The call `c` of `getConnection`, from its check to its return. -/
def wholeGet (c : Nat) : List Label := [.lockSpawn c, .spawn c, .spawnEnds c true, .register c, .returnCon c]

/-- Two connections, a statement on one of them, and a `close` that a third call comes too late for. -/
def twoConnections : List Label :=
  [.getConnection, .getConnection] ++ wholeGet 1 ++ [.enter 0, .close, .mark 2] ++ wholeGet 0 ++
    [.getConnection, .walk 2, .snapshot 2 [1, 0], .next 2, .conMark 2, .stop 2, .remove 2, .next 2, .conMark 2,
      .leave 0, .stop 2, .remove 2, .rtClose 2, .unlock 2]

theorem close_leaves_nothing_two :
    EveryState step Safe {} twoConnections ∧ EveryStep step NotLate {} twoConnections :=
  close_leaves_nothing _ (by decide)

/-- The call `c` of `close`, behind its check, with no connection in the set. -/
def wholeClose (c : Nat) : List Label := [.mark c, .walk c, .snapshot c [], .rtClose c, .unlock c]

/-- A call past its check, then the whole `close`, then the call's spawn. -/
theorem spawn_after_close :
    ¬ ∀ labels, EveryState step Safe {} labels ∧ EveryStep step NotLate {} labels := by
  intro h
  have hlate := (h (([.getConnection, .close] ++ wholeClose 1 ++ [.lockSpawn 0]) ++ [.spawn 0])).2
  have hreleased := (hlate.append rfl).1 rfl
  cases hreleased

end DataSourceRace

end Sqlol

/-
`SqliteWorker.run`, `stop` and the interrupt that goes past both, one lock or
guest call a step, by any number of threads.

The worker's lock is reentrant: a callback out of a statement, or out of the
guest's close, may call into the worker again on the same thread. So a thread
has a stack of calls, and those below the top wait for the one above.

`run` looks at the `closed` flag under the lock and `stop` sets it there, which
is why no `fn` runs beside the close of the session as long as no thread stops
the worker out of its own `fn` (`calls_run_safe`). An interrupt takes neither
the lock nor the flag, only the runtime's `mainLock`, so it reaches a closed
`sqlite3` unless the flag happens to be clear (`interrupt_run_safe`,
`interrupt_after_close`).
-/
import Sqlol.ReentrantLock
import Sqlol.Runs

namespace Sqlol

namespace WorkerCalls

/-- Where a call is. -/
inductive Frame where
  /-- `run`: at `lock.lock()`, at `check(!closed)`, in `fn(session)`. -/
  | locking
  | checking
  | inFn
  /-- `stop`: at `tryLock`, at `if (closed) return`, at `closed = true`. -/
  | trying
  | testing
  | marking
  /-- Before `session.close()`, in it, and in its `sqlite3_close_v2`. -/
  | marked
  | closing
  | closingDb
  | closingChild
  /-- In the `finally` block of either. -/
  | unlocking
  /-- `interruptDb`. -/
  | mainLocking
  | interrupting
  | mainUnlocking
  deriving DecidableEq

namespace Frame

/-- The call has the worker's lock. -/
def holds : Frame → Bool
  | .checking | .inFn | .testing | .marking | .marked | .closing | .closingDb | .closingChild | .unlocking => true
  | _ => false

/-- In `session.close()`. -/
def inClose : Frame → Bool
  | .closing | .closingDb => true
  | _ => false

/-- Guest code is on the thread's stack, so a callback may come out of it. -/
def callsBack : Frame → Bool
  | .inFn | .closing | .closingDb => true
  | _ => false

/-- A `stop` call that has not set the flag yet. -/
def stopping : Frame → Bool
  | .trying | .testing | .marking => true
  | _ => false

end Frame

/-- The worker, and each thread's calls, innermost first. The counters note
how often `session.close` and `rt.closeChild` were called; no step reads them. -/
structure Sys where
  lock : ReentrantLock Nat := {}
  mainLock : ReentrantLock Nat := {}
  closed : Bool := false
  dbClosed : Bool := false
  sessionCloses : Nat := 0
  childCloses : Nat := 0
  stack : Nat → List Frame := fun _ => []

/-- The steps of the threads `t`. -/
inductive Label where
  | run (t : Nat)
  | stop (t : Nat)
  | interrupt (t : Nat)
  | lock (t : Nat)
  /-- The 60 s are over, or the thread is interrupted: `stop` throws. -/
  | lockFails (t : Nat)
  | check (t : Nat)
  /-- `fn` returns or throws. -/
  | endFn (t : Nat)
  | mark (t : Nat)
  | closeSession (t : Nat)
  /-- An exception leaves `session.close` before `sqlite3_close_v2`. -/
  | closeFails (t : Nat)
  | closeV2 (t : Nat)
  | endClose (t : Nat) (ok : Bool)
  /-- `closeChild` returns or throws. -/
  | endChild (t : Nat)
  | unlock (t : Nat)
  | sqlite3Interrupt (t : Nat)
  | unlockMain (t : Nat)

/-- A thread may begin a call: it is in none, or in a callback. -/
def callable : List Frame → Bool
  | [] => true
  | f :: _ => f.callsBack

/-- Another stack of a thread. -/
def Sys.setStack (s : Sys) (t : Nat) (fs : List Frame) : Sys := { s with stack := Function.update s.stack t fs }

/-- One step; none where it is not the next one. -/
def step (s : Sys) : Label → Option Sys
  | .run t => if callable (s.stack t) then some (s.setStack t (.locking :: s.stack t)) else none
  | .stop t => if callable (s.stack t) then some (s.setStack t (.trying :: s.stack t)) else none
  | .interrupt t => if callable (s.stack t) then some (s.setStack t (.mainLocking :: s.stack t)) else none
  | .lock t => match s.stack t with
    | .locking :: rest => (s.lock.acquire t).map fun lock => { s with lock }.setStack t (.checking :: rest)
    | .trying :: rest => (s.lock.acquire t).map fun lock => { s with lock }.setStack t (.testing :: rest)
    | .mainLocking :: rest =>
      (s.mainLock.acquire t).map fun mainLock => { s with mainLock }.setStack t (.interrupting :: rest)
    | _ => none
  | .lockFails t => match s.stack t with
    | .trying :: rest => some (s.setStack t rest)
    | _ => none
  | .check t => match s.stack t with
    | .checking :: rest => some (s.setStack t ((if s.closed then .unlocking else .inFn) :: rest))
    | .testing :: rest => some (s.setStack t ((if s.closed then .unlocking else .marking) :: rest))
    | _ => none
  | .endFn t => match s.stack t with
    | .inFn :: rest => some (s.setStack t (.unlocking :: rest))
    | _ => none
  | .mark t => match s.stack t with
    | .marking :: rest => some ({ s with closed := true }.setStack t (.marked :: rest))
    | _ => none
  | .closeSession t => match s.stack t with
    | .marked :: rest => some ({ s with sessionCloses := s.sessionCloses + 1 }.setStack t (.closing :: rest))
    | _ => none
  | .closeFails t => match s.stack t with
    | .closing :: rest => some (s.setStack t (.unlocking :: rest))
    | _ => none
  | .closeV2 t => match s.stack t with
    | .closing :: rest => some ({ s with dbClosed := true }.setStack t (.closingDb :: rest))
    | _ => none
  | .endClose t ok => match s.stack t with
    | .closingDb :: rest =>
      if ok then some ({ s with childCloses := s.childCloses + 1 }.setStack t (.closingChild :: rest))
      else some (s.setStack t (.unlocking :: rest))
    | _ => none
  | .endChild t => match s.stack t with
    | .closingChild :: rest => some (s.setStack t (.unlocking :: rest))
    | _ => none
  | .unlock t => match s.stack t with
    | .unlocking :: rest => some ({ s with lock := s.lock.release }.setStack t rest)
    | _ => none
  | .sqlite3Interrupt t => match s.stack t with
    | .interrupting :: rest => some (s.setStack t (.mainUnlocking :: rest))
    | _ => none
  | .unlockMain t => match s.stack t with
    | .mainUnlocking :: rest => some ({ s with mainLock := s.mainLock.release }.setStack t rest)
    | _ => none

/-- `fn` runs against the session on this thread; nested ones wait for the innermost. -/
def Executes (s : Sys) (t : Nat) : Prop := Frame.inFn ∈ s.stack t

/-- One execution at a time, none behind the session's close, and each close once. -/
structure Safe (s : Sys) : Prop where
  exclusive : ∀ t u, Executes s t → Executes s u → t = u
  quiet : 0 < s.sessionCloses → ∀ t, ¬ Executes s t
  sessionOnce : s.sessionCloses ≤ 1
  childOnce : s.childCloses ≤ 1

/-- No thread calls `stop` from inside its own `fn`. -/
def StopsOutside (s : Sys) : Label → Prop
  | .stop t => Frame.inFn ∉ s.stack t
  | _ => True

/-! ## The invariant -/

/-- Only guest code has calls above it, and a `stop` call has no `fn` below. -/
structure Nested (fs : List Frame) : Prop where
  below : ∀ f rest, fs = f :: rest → ∀ g ∈ rest, g.callsBack = true
  stop : ∀ f rest, fs = f :: rest → f.stopping = true → Frame.inFn ∉ rest

/-- The lock's holds are the calls that have it; and the flag goes before the
close, which goes before the child's. -/
structure Inv (s : Sys) : Prop where
  lock : s.lock.Counts fun t => (s.stack t).countP Frame.holds
  nested : ∀ t, Nested (s.stack t)
  quiet : s.closed = true → ∀ t, Frame.inFn ∉ s.stack t
  marking : ∀ t, Frame.marking ∈ s.stack t → s.closed = false
  unmarked : s.closed = false → s.sessionCloses = 0 ∧ ∀ t, Frame.marked ∉ s.stack t
  session : ∀ t, s.sessionCloses + (s.stack t).count .marked ≤ 1
  child : ∀ t, s.childCloses + (s.stack t).countP Frame.inClose ≤ s.sessionCloses

theorem inv_start : Inv {} where
  lock := ReentrantLock.counts_free
  nested _ := ⟨fun _ _ h => (nomatch h), fun _ _ h => (nomatch h)⟩
  quiet h := by cases h
  marking _ h := by cases h
  unmarked _ := ⟨rfl, fun _ h => by cases h⟩
  session _ := by simp
  child _ := by simp

theorem Nested.push {fs : List Frame} (hn : Nested fs) (hc : callable fs = true) {f : Frame}
    (hf : f.stopping = true → Frame.inFn ∉ fs) : Nested (f :: fs) := by
  refine ⟨fun g rest h k hk => ?_, fun g rest h hg => ?_⟩
  · cases h
    cases fs with
    | nil => cases hk
    | cons a as =>
      rcases List.mem_cons.mp hk with rfl | hk
      · exact hc
      · exact hn.below a as rfl k hk
  · cases h
    exact hf hg

theorem Nested.replace {f g : Frame} {rest : List Frame} (hn : Nested (f :: rest))
    (hg : g.stopping = true → f.stopping = true) : Nested (g :: rest) := by
  refine ⟨fun k ks h => ?_, fun k ks h hk => ?_⟩
  · cases h
    exact hn.below f rest rfl
  · cases h
    exact hn.stop f rest rfl (hg hk)

theorem Nested.pop {f : Frame} {rest : List Frame} (hn : Nested (f :: rest)) : Nested rest := by
  have hback := hn.below f rest rfl
  refine ⟨fun g ks h k hk => hback k (h ▸ List.mem_cons_of_mem g hk), fun g ks h hg => ?_⟩
  have hgb := hback g (h ▸ List.mem_cons_self)
  cases g <;> first | exact absurd hgb (by decide) | exact absurd hg (by decide)

section
variable {s : Sys} {t : Nat}

/-- A call with the lock is on the one thread that has it. -/
theorem Inv.only (hi : Inv s) {u : Nat} {f g : Frame} (hf : f ∈ s.stack t) (hg : g ∈ s.stack u)
    (hfh : f.holds = true) (hgh : g.holds = true) : u = t := by
  refine hi.lock.eq_of_holds ?_ ?_
  · exact Nat.ne_of_gt (List.countP_pos_iff.mpr ⟨g, hg, hgh⟩)
  · exact Nat.ne_of_gt (List.countP_pos_iff.mpr ⟨f, hf, hfh⟩)

theorem holds_setStack {fs : List Frame} :
    (fun u => ((s.setStack t fs).stack u).countP Frame.holds) =
      Function.update (fun u => (s.stack u).countP Frame.holds) t (fs.countP Frame.holds) :=
  Function.comp_update (List.countP Frame.holds) s.stack t fs

/-- A step of one thread that leaves the flag alone. -/
theorem Inv.update (hi : Inv s) {lock mainLock : ReentrantLock Nat} {sessionCloses childCloses : Nat}
    {fs : List Frame}
    (hlock : lock.Counts (Function.update (fun u => (s.stack u).countP Frame.holds) t (fs.countP Frame.holds)))
    (hn : Nested fs) (hfn : Frame.inFn ∈ fs → Frame.inFn ∈ s.stack t ∨ s.closed = false)
    (hmarking : Frame.marking ∈ fs → Frame.marking ∈ s.stack t ∨ s.closed = false)
    (hopen : s.closed = false → sessionCloses = 0 ∧ Frame.marked ∉ fs)
    (hsession : sessionCloses + fs.count .marked ≤ 1)
    (hsession' : ∀ u ≠ t, sessionCloses + (s.stack u).count .marked ≤ 1)
    (hchild : childCloses + fs.countP Frame.inClose ≤ sessionCloses)
    (hchild' : ∀ u ≠ t, childCloses + (s.stack u).countP Frame.inClose ≤ sessionCloses) :
    Inv ({ s with lock, mainLock, sessionCloses, childCloses }.setStack t fs) := by
  generalize hs' : ({ s with lock, mainLock, sessionCloses, childCloses } : Sys).setStack t fs = s'
  have hclosed : s'.closed = s.closed := by rw [← hs']; rfl
  have self : s'.stack t = fs := by rw [← hs']; exact Function.update_self ..
  have other : ∀ u, u ≠ t → s'.stack u = s.stack u := fun u hu => by
    rw [← hs']; exact Function.update_of_ne hu ..
  refine ⟨?_, fun u => ?_, fun hc u => ?_, fun u hu => ?_, fun hc => ?_, fun u => ?_, fun u => ?_⟩
  · rw [← hs', holds_setStack]; exact hlock
  · by_cases hut : u = t
    · subst hut; rw [self]; exact hn
    · rw [other u hut]; exact hi.nested u
  · rw [hclosed] at hc
    by_cases hut : u = t
    · subst hut
      rw [self]
      intro hm
      rcases hfn hm with h | h
      · exact hi.quiet hc u h
      · rw [hc] at h; cases h
    · rw [other u hut]; exact hi.quiet hc u
  · rw [hclosed]
    by_cases hut : u = t
    · subst hut
      rw [self] at hu
      rcases hmarking hu with h | h
      · exact hi.marking u h
      · exact h
    · rw [other u hut] at hu; exact hi.marking u hu
  · rw [hclosed] at hc
    refine ⟨by rw [← hs']; exact (hopen hc).1, fun u => ?_⟩
    by_cases hut : u = t
    · subst hut; rw [self]; exact (hopen hc).2
    · rw [other u hut]; exact (hi.unmarked hc).2 u
  · have hcount : s'.sessionCloses = sessionCloses := by rw [← hs']; rfl
    rw [hcount]
    by_cases hut : u = t
    · subst hut; rw [self]; exact hsession
    · rw [other u hut]; exact hsession' u hut
  · have hcount : s'.sessionCloses = sessionCloses ∧ s'.childCloses = childCloses := by
      rw [← hs']; exact ⟨rfl, rfl⟩
    rw [hcount.1, hcount.2]
    by_cases hut : u = t
    · subst hut; rw [self]; exact hchild
    · rw [other u hut]; exact hchild' u hut

/-- A step that leaves the counters alone, too. -/
theorem Inv.move (hi : Inv s) {lock mainLock : ReentrantLock Nat} {fs : List Frame}
    (hlock : lock.Counts (Function.update (fun u => (s.stack u).countP Frame.holds) t (fs.countP Frame.holds)))
    (hn : Nested fs) (hfn : Frame.inFn ∈ fs → Frame.inFn ∈ s.stack t ∨ s.closed = false)
    (hmarking : Frame.marking ∈ fs → Frame.marking ∈ s.stack t ∨ s.closed = false)
    (hmarked : fs.count .marked ≤ (s.stack t).count .marked)
    (hclose : fs.countP Frame.inClose ≤ (s.stack t).countP Frame.inClose) :
    Inv ({ s with lock, mainLock }.setStack t fs) := by
  have hsession := hi.session t
  have hchild := hi.child t
  refine hi.update hlock hn hfn hmarking (fun hc => ?_) (by omega) (fun u _ => hi.session u) (by omega)
    (fun u _ => hi.child u)
  obtain ⟨h0, hno⟩ := hi.unmarked hc
  refine ⟨h0, List.count_eq_zero.mp ?_⟩
  have := List.count_eq_zero.mpr (hno t)
  omega

/-- The same with the locks as they were. -/
theorem Inv.moveOnly (hi : Inv s) {fs : List Frame}
    (hlock : fs.countP Frame.holds = (s.stack t).countP Frame.holds)
    (hn : Nested fs) (hfn : Frame.inFn ∈ fs → Frame.inFn ∈ s.stack t ∨ s.closed = false)
    (hmarking : Frame.marking ∈ fs → Frame.marking ∈ s.stack t ∨ s.closed = false)
    (hmarked : fs.count .marked ≤ (s.stack t).count .marked)
    (hclose : fs.countP Frame.inClose ≤ (s.stack t).countP Frame.inClose) : Inv (s.setStack t fs) := by
  refine hi.move ?_ hn hfn hmarking hmarked hclose
  rw [hlock, Function.update_eq_self]
  exact hi.lock

/-- A call goes on, with the lock if it had it. -/
theorem Inv.replace (hi : Inv s) {f g : Frame} {rest : List Frame} (hst : s.stack t = f :: rest)
    (hholds : g.holds = f.holds) (hstop : g.stopping = true → f.stopping = true)
    (hfn : g = .inFn → s.closed = false) (hmarking : g = .marking → s.closed = false) (hmarked : g ≠ .marked)
    (hclose : g.inClose = true → f.inClose = true) : Inv (s.setStack t (g :: rest)) := by
  refine hi.moveOnly ?_ ((hst ▸ hi.nested t).replace hstop) (fun h => ?_) (fun h => ?_) ?_ ?_
  · rw [hst, List.countP_cons, List.countP_cons, hholds]
  · rcases List.mem_cons.mp h with h | h
    · exact .inr (hfn h.symm)
    · exact .inl (hst ▸ List.mem_cons_of_mem f h)
  · rcases List.mem_cons.mp h with h | h
    · exact .inr (hmarking h.symm)
    · exact .inl (hst ▸ List.mem_cons_of_mem f h)
  · rw [hst, List.count_cons_of_ne hmarked]
    exact List.count_le_count_cons
  · rw [hst, List.countP_cons, List.countP_cons]
    split
    · next h =>
      have hf : (if f.inClose = true then 1 else 0) = 1 := if_pos (hclose h)
      omega
    · omega

/-- The same, to a frame the flag is not about. -/
theorem Inv.pass (hi : Inv s) {f g : Frame} {rest : List Frame} (hst : s.stack t = f :: rest)
    (hholds : g.holds = f.holds) (hstop : g.stopping = true → f.stopping = true)
    (hclose : g.inClose = true → f.inClose = true) (hg : g ∉ [Frame.inFn, .marking, .marked]) :
    Inv (s.setStack t (g :: rest)) := by
  refine hi.replace hst hholds hstop (fun h => ?_) (fun h => ?_) (fun h => ?_) hclose
  · subst h; exact absurd (by decide) hg
  · subst h; exact absurd (by decide) hg
  · subst h; exact absurd (by decide) hg

/-- A call begins. -/
theorem Inv.push (hi : Inv s) {f : Frame} (hc : callable (s.stack t) = true) (hholds : f.holds = false)
    (hstop : f.stopping = true → Frame.inFn ∉ s.stack t) : Inv (s.setStack t (f :: s.stack t)) := by
  have hne : ∀ g : Frame, g.holds = true → g ≠ f := fun g hg h => by rw [h, hholds] at hg; cases hg
  refine hi.moveOnly ?_ ((hi.nested t).push hc hstop) (fun h => ?_) (fun h => ?_) ?_ ?_
  · rw [List.countP_cons, hholds]; rfl
  · exact .inl ((List.mem_cons.mp h).resolve_left (hne _ rfl))
  · exact .inl ((List.mem_cons.mp h).resolve_left (hne _ rfl))
  · exact Nat.le_of_eq (List.count_cons_of_ne (hne _ rfl).symm)
  · have hno : ¬f.inClose = true := by
      intro h
      cases f <;> first | exact absurd h (by decide) | exact absurd hholds (by decide)
    rw [List.countP_cons, if_neg hno]
    omega

/-- A call ends that has no lock any more, or never had it. -/
theorem Inv.pop (hi : Inv s) {f : Frame} {rest : List Frame} (hst : s.stack t = f :: rest)
    {lock mainLock : ReentrantLock Nat}
    (hlock : lock.Counts (Function.update (fun u => (s.stack u).countP Frame.holds) t (rest.countP Frame.holds))) :
    Inv ({ s with lock, mainLock }.setStack t rest) := by
  have hsub : ∀ g ∈ rest, g ∈ s.stack t := fun g hg => hst ▸ List.mem_cons_of_mem f hg
  refine hi.move hlock (hst ▸ hi.nested t).pop (fun h => .inl (hsub _ h)) (fun h => .inl (hsub _ h)) ?_ ?_
  · rw [hst]; exact List.count_le_count_cons
  · rw [hst, List.countP_cons]; omega

/-- The worker's lock is taken. -/
theorem Inv.locked (hi : Inv s) {f g : Frame} {rest : List Frame} {lock : ReentrantLock Nat}
    (hst : s.stack t = f :: rest) (hf : f.holds = false) (hg : g.holds = true)
    (hstop : g.stopping = true → f.stopping = true) (hfn : g ≠ .inFn) (hmarking : g ≠ .marking)
    (hmarked : g ≠ .marked) (hclose : g.inClose = false) (ha : s.lock.acquire t = some lock) :
    Inv ({ s with lock }.setStack t (g :: rest)) := by
  have hcount := hi.lock.acquire ha
  have hrest : (s.stack t).countP Frame.holds = rest.countP Frame.holds := by
    rw [hst, List.countP_cons, hf]; rfl
  rw [hrest] at hcount
  refine hi.move ?_ ((hst ▸ hi.nested t).replace hstop) (fun h => ?_) (fun h => ?_) ?_ ?_
  · rw [List.countP_cons, if_pos hg]; exact hcount
  · exact .inl (hst ▸ List.mem_cons_of_mem f ((List.mem_cons.mp h).resolve_left (Ne.symm hfn)))
  · exact .inl (hst ▸ List.mem_cons_of_mem f ((List.mem_cons.mp h).resolve_left (Ne.symm hmarking)))
  · rw [hst, List.count_cons_of_ne hmarked]
    exact List.count_le_count_cons
  · rw [hst, List.countP_cons, List.countP_cons, hclose]
    simp

/-! ## The steps -/

/-- `closed = true`. -/
theorem Inv.mark (hi : Inv s) {rest : List Frame} (hst : s.stack t = .marking :: rest) :
    Inv ({ s with closed := true }.setStack t (.marked :: rest)) := by
  have hmem : Frame.marking ∈ s.stack t := by rw [hst]; exact List.mem_cons_self
  obtain ⟨h0, hno⟩ := hi.unmarked (hi.marking t hmem)
  have hn : Nested (.marking :: rest) := hst ▸ hi.nested t
  have hback := hn.below _ rest rfl
  have self : ({ s with closed := true }.setStack t (.marked :: rest)).stack t = .marked :: rest :=
    Function.update_self ..
  have other : ∀ u, u ≠ t → ({ s with closed := true }.setStack t (.marked :: rest)).stack u = s.stack u :=
    fun u hu => Function.update_of_ne hu ..
  have hmarked : rest.count .marked = 0 :=
    List.count_eq_zero.mpr fun h => absurd (hback _ h) (by decide)
  refine ⟨?_, fun u => ?_, fun _ u => ?_, fun u hu => ?_, fun h => (nomatch h), fun u => ?_, fun u => ?_⟩
  · rw [holds_setStack]
    have : (Frame.marked :: rest).countP Frame.holds = (s.stack t).countP Frame.holds := by
      rw [hst, List.countP_cons_of_pos rfl, List.countP_cons_of_pos rfl]
    rw [this]
    exact (Function.update_eq_self t (fun u => (s.stack u).countP Frame.holds)).symm ▸ hi.lock
  · by_cases hut : u = t
    · subst hut; rw [self]; exact hn.replace (by decide)
    · rw [other u hut]; exact hi.nested u
  · -- Whoever is in `fn` has the lock; this thread has it, and began its `stop` outside any `fn`.
    by_cases hut : u = t
    · subst hut
      rw [self, List.mem_cons, not_or]
      exact ⟨by decide, hn.stop _ rest rfl rfl⟩
    · rw [other u hut]
      exact fun h => hut (hi.only hmem h rfl rfl)
  · by_cases hut : u = t
    · subst hut
      rw [self] at hu
      rcases List.mem_cons.mp hu with h | h
      · cases h
      · exact absurd (hback _ h) (by decide)
    · rw [other u hut] at hu
      exact absurd (hi.only hmem hu rfl rfl) hut
  · show s.sessionCloses + _ ≤ 1
    by_cases hut : u = t
    · subst hut; rw [self, List.count_cons_self, hmarked]; omega
    · rw [other u hut, List.count_eq_zero.mpr (hno u)]; omega
  · have hchild := hi.child u
    by_cases hut : u = t
    · subst hut
      rw [self, List.countP_cons_of_neg (by decide)]
      rw [hst, List.countP_cons_of_neg (by decide)] at hchild
      exact hchild
    · rw [other u hut]; exact hchild

/-- The lock is given up as the call ends. -/
theorem Inv.unlocked (hi : Inv s) {rest : List Frame} (hst : s.stack t = .unlocking :: rest) :
    Inv ({ s with lock := s.lock.release }.setStack t rest) := by
  have hholds : (s.stack t).countP Frame.holds = rest.countP Frame.holds + 1 := by
    rw [hst, List.countP_cons_of_pos rfl]
  have hcount := hi.lock.release (t := t) (by rw [hholds]; omega)
  rw [hholds, Nat.add_sub_cancel] at hcount
  exact hi.pop hst hcount

/-- No other thread has a frame that comes with the lock. -/
theorem Inv.others (hi : Inv s) {f : Frame} (hf : f ∈ s.stack t) (hfh : f.holds = true) {p : Frame → Bool}
    (hp : ∀ g, p g = true → g.holds = true) {u : Nat} (hut : u ≠ t) : (s.stack u).countP p = 0 := by
  refine List.countP_eq_zero.mpr fun g hg hpg => ?_
  exact hut (hi.only hf hg hfh (hp g hpg))

theorem holds_of_inClose (g : Frame) (h : g.inClose = true) : g.holds = true := by
  cases g <;> first | rfl | exact absurd h (by decide)

/-- `session.close()` is called. -/
theorem Inv.closeSession (hi : Inv s) {rest : List Frame} (hst : s.stack t = .marked :: rest) :
    Inv ({ s with sessionCloses := s.sessionCloses + 1 }.setStack t (.closing :: rest)) := by
  have hmem : Frame.marked ∈ s.stack t := by rw [hst]; exact List.mem_cons_self
  have hclosed : s.closed ≠ false := fun hc => (hi.unmarked hc).2 t hmem
  have hsession := hi.session t
  have hchild := hi.child t
  rw [hst, List.count_cons_self] at hsession
  rw [hst, List.countP_cons_of_neg (by decide)] at hchild
  have hn : Nested (.marked :: rest) := hst ▸ hi.nested t
  refine hi.update ?_ (hn.replace (by decide)) (fun h => ?_) (fun h => ?_) (fun hc => absurd hc hclosed) ?_
    (fun u hut => ?_) ?_ (fun u hut => ?_)
  · have : (Frame.closing :: rest).countP Frame.holds = (s.stack t).countP Frame.holds := by
      rw [hst, List.countP_cons_of_pos rfl, List.countP_cons_of_pos rfl]
    rw [this, Function.update_eq_self]
    exact hi.lock
  · exact .inl (hst ▸ List.mem_cons_of_mem _ ((List.mem_cons.mp h).resolve_left (by decide)))
  · exact .inl (hst ▸ List.mem_cons_of_mem _ ((List.mem_cons.mp h).resolve_left (by decide)))
  · rw [List.count_cons_of_ne (by decide)]; omega
  · have := hi.others hmem rfl (p := (· == .marked)) (fun g hg => by rw [beq_iff_eq.mp hg]; rfl) hut
    rw [List.count, this]
    omega
  · rw [List.countP_cons_of_pos rfl]; omega
  · have := hi.child u
    omega

/-- `rt.closeChild(child)` is called. -/
theorem Inv.closeChild (hi : Inv s) {rest : List Frame} (hst : s.stack t = .closingDb :: rest) :
    Inv ({ s with childCloses := s.childCloses + 1 }.setStack t (.closingChild :: rest)) := by
  have hmem : Frame.closingDb ∈ s.stack t := by rw [hst]; exact List.mem_cons_self
  have hchild := hi.child t
  rw [hst, List.countP_cons_of_pos rfl] at hchild
  have hi' := hi.pass (g := .closingChild) hst rfl (by decide) (by decide) (by decide)
  refine { hi' with child := fun u => ?_ }
  show s.childCloses + 1 + _ ≤ s.sessionCloses
  by_cases hut : u = t
  · subst hut
    rw [show Sys.stack _ u = _ from Function.update_self .., List.countP_cons_of_neg (by decide)]
    omega
  · rw [show Sys.stack _ u = _ from Function.update_of_ne hut .., hi.others hmem rfl holds_of_inClose hut]
    omega

/-- Whatever a thread does next, the invariant stays. -/
theorem Inv.step (hi : Inv s) {l : Label} {s' : Sys} (ho : StopsOutside s l) (h : step s l = some s') : Inv s' := by
  cases l with
  | run t =>
    simp only [WorkerCalls.step, Option.ite_none_right_eq_some, Option.some.injEq] at h
    obtain ⟨hc, rfl⟩ := h
    exact hi.push hc rfl (fun h => nomatch h)
  | stop t =>
    simp only [WorkerCalls.step, Option.ite_none_right_eq_some, Option.some.injEq] at h
    obtain ⟨hc, rfl⟩ := h
    exact hi.push hc rfl fun _ => ho
  | interrupt t =>
    simp only [WorkerCalls.step, Option.ite_none_right_eq_some, Option.some.injEq] at h
    obtain ⟨hc, rfl⟩ := h
    exact hi.push hc rfl (fun h => nomatch h)
  | lock t =>
    simp only [WorkerCalls.step] at h
    split at h
    · next rest hst =>
      obtain ⟨lock, ha, rfl⟩ := Option.map_eq_some_iff.mp h
      exact hi.locked hst rfl rfl (by decide) (by decide) (by decide) (by decide) rfl ha
    · next rest hst =>
      obtain ⟨lock, ha, rfl⟩ := Option.map_eq_some_iff.mp h
      exact hi.locked hst rfl rfl (by decide) (by decide) (by decide) (by decide) rfl ha
    · next rest hst =>
      obtain ⟨mainLock, -, rfl⟩ := Option.map_eq_some_iff.mp h
      have hi' := hi.pass (g := .interrupting) hst rfl (by decide) (by decide) (by decide)
      exact { hi' with }
    · cases h
  | lockFails t =>
    simp only [WorkerCalls.step] at h
    split at h <;> cases h
    next rest hst =>
    refine hi.pop hst ?_
    rw [← List.countP_cons_of_neg (a := Frame.trying) (by decide), ← hst, Function.update_eq_self]
    exact hi.lock
  | check t =>
    simp only [WorkerCalls.step] at h
    split at h
    · next rest hst =>
      cases h
      cases hc : s.closed with
      | true => exact hi.pass hst rfl (by decide) (by decide) (by decide)
      | false => exact hi.replace hst rfl (by decide) (fun _ => hc) (fun _ => hc) (by decide) (by decide)
    · next rest hst =>
      cases h
      cases hc : s.closed with
      | true => exact hi.pass hst rfl (by decide) (by decide) (by decide)
      | false => exact hi.replace hst rfl (by decide) (fun _ => hc) (fun _ => hc) (by decide) (by decide)
    · cases h
  | mark t =>
    simp only [WorkerCalls.step] at h
    split at h <;> cases h
    next rest hst => exact hi.mark hst
  | closeSession t =>
    simp only [WorkerCalls.step] at h
    split at h <;> cases h
    next rest hst => exact hi.closeSession hst
  | closeV2 t =>
    simp only [WorkerCalls.step] at h
    split at h <;> cases h
    next rest hst =>
    have hi' := hi.pass (g := .closingDb) hst rfl (by decide) (by decide) (by decide)
    exact { hi' with }
  | endClose t ok =>
    simp only [WorkerCalls.step] at h
    split at h
    · next rest hst =>
      cases ok with
      | true => cases h; exact hi.closeChild hst
      | false => cases h; exact hi.pass hst rfl (by decide) (by decide) (by decide)
    · cases h
  | unlock t =>
    simp only [WorkerCalls.step] at h
    split at h <;> cases h
    next rest hst => exact hi.unlocked hst
  | unlockMain t =>
    simp only [WorkerCalls.step] at h
    split at h <;> cases h
    next rest hst =>
    refine hi.pop hst ?_
    rw [← List.countP_cons_of_neg (a := Frame.mainUnlocking) (by decide), ← hst, Function.update_eq_self]
    exact hi.lock
  | endFn t | closeFails t | endChild t | sqlite3Interrupt t =>
    -- The call goes to a frame no clause of the invariant is about.
    simp only [WorkerCalls.step] at h
    split at h <;> cases h
    next rest hst => exact hi.pass hst rfl (by decide) (by decide) (by decide)

theorem Inv.safe (hi : Inv s) : Safe s where
  exclusive t u ht hu := (hi.only ht hu rfl rfl).symm
  quiet hpos t := by
    refine hi.quiet ?_ t
    cases hc : s.closed with
    | true => rfl
    | false =>
      have := (hi.unmarked hc).1
      omega
  sessionOnce := Nat.le_trans (Nat.le_add_right _ _) (hi.session 0)
  childOnce := by
    have hsession := hi.session 0
    have hchild := hi.child 0
    omega

end

/-! ## Runs -/

instance (s : Sys) (l : Label) : Decidable (StopsOutside s l) :=
  match l with
  | .stop t => inferInstanceAs (Decidable (Frame.inFn ∉ s.stack t))
  | .run _ | .interrupt _ | .lock _ | .lockFails _ | .check _ | .endFn _ | .mark _ | .closeSession _ | .closeFails _
  | .closeV2 _ | .endClose _ _ | .endChild _ | .unlock _ | .sqlite3Interrupt _ | .unlockMain _ =>
    inferInstanceAs (Decidable True)

/-- One thread's `run`, the callback inside left out. -/
def wholeRun (t : Nat) : List Label := [.run t, .lock t, .check t, .endFn t, .unlock t]

/-- A `stop` from its call to its return. -/
def wholeStop (t : Nat) : List Label :=
  [.stop t, .lock t, .check t, .mark t, .closeSession t, .closeV2 t, .endClose t true, .endChild t, .unlock t]

/-- An interrupt from its call to its return. -/
def wholeInterrupt (t : Nat) : List Label := [.interrupt t, .lock t, .sqlite3Interrupt t, .unlockMain t]

/-- **One `fn` at a time, none beside or after the session's close, and one
close**, in every order of the steps of any number of threads. -/
theorem calls_run_safe (labels : List Label) (h : EveryStep step StopsOutside {} labels) :
    EveryState step Safe {} labels :=
  everyState_of_invariant (fun _ _ _ hi ho h => Inv.step hi ho h) (fun _ hi => hi.safe) inv_start h

/-- A `stop` waits for a running `fn`; a second `stop` and a late `run` find the flag. -/
theorem calls_run_safe_two_stops :
    EveryState step Safe {} ([.run 0, .lock 0, .check 0, .stop 1, .endFn 0, .unlock 0] ++ (wholeStop 1).tail ++
      [.stop 2, .lock 2, .check 2, .unlock 2, .run 0, .lock 0, .check 0, .unlock 0]) :=
  calls_run_safe _ (by decide)

/-! ## The interrupt -/

/-- The interrupt does not reach a `sqlite3` whose close has been called. -/
def InterruptSafe (s : Sys) : Label → Prop
  | .sqlite3Interrupt _ => s.dbClosed = false
  | _ => True

/-- No `stop` has set the worker's flag when an interrupt goes to the guest. -/
def InterruptsOpen (s : Sys) : Label → Prop
  | .sqlite3Interrupt _ => s.closed = false
  | _ => True

instance (s : Sys) (l : Label) : Decidable (InterruptSafe s l) :=
  match l with
  | .sqlite3Interrupt _ => inferInstanceAs (Decidable (s.dbClosed = false))
  | .run _ | .stop _ | .interrupt _ | .lock _ | .lockFails _ | .check _ | .endFn _ | .mark _ | .closeSession _
  | .closeFails _ | .closeV2 _ | .endClose _ _ | .endChild _ | .unlock _ | .unlockMain _ =>
    inferInstanceAs (Decidable True)

instance (s : Sys) (l : Label) : Decidable (InterruptsOpen s l) :=
  match l with
  | .sqlite3Interrupt _ => inferInstanceAs (Decidable (s.closed = false))
  | .run _ | .stop _ | .interrupt _ | .lock _ | .lockFails _ | .check _ | .endFn _ | .mark _ | .closeSession _
  | .closeFails _ | .closeV2 _ | .endClose _ _ | .endChild _ | .unlock _ | .unlockMain _ =>
    inferInstanceAs (Decidable True)

/-- The call is past `closed = true`. -/
def Frame.pastFlag : Frame → Bool
  | .marked | .closing | .closingDb | .closingChild => true
  | _ => false

/-- The flag goes before the close, also when `fn` itself is what stops the worker. -/
structure Flagged (s : Sys) : Prop where
  stack : ∀ t, ∀ f ∈ s.stack t, f.pastFlag = true → s.closed = true
  db : s.dbClosed = true → s.closed = true

section
variable {s : Sys} {t : Nat}

/-- One thread's new calls are past the flag only where the flag is set. -/
theorem Flagged.setStack (hi : Flagged s) {fs : List Frame}
    (hfs : ∀ f ∈ fs, f.pastFlag = true → f ∈ s.stack t ∨ s.closed = true) : Flagged (s.setStack t fs) := by
  refine ⟨fun u f hf hp => ?_, hi.db⟩
  by_cases hut : u = t
  · subst hut
    rw [show (s.setStack u fs).stack u = fs from Function.update_self ..] at hf
    rcases hfs f hf hp with h | h
    · exact hi.stack u f h hp
    · exact h
  · rw [show (s.setStack t fs).stack u = s.stack u from Function.update_of_ne hut ..] at hf
    exact hi.stack u f hf hp

theorem Flagged.pass (hi : Flagged s) {f g : Frame} {rest : List Frame} (hst : s.stack t = f :: rest)
    (hg : g.pastFlag = true → s.closed = true) : Flagged (s.setStack t (g :: rest)) := by
  refine hi.setStack fun k hk hp => ?_
  rcases List.mem_cons.mp hk with rfl | hk
  · exact .inr (hg hp)
  · exact .inl (hst ▸ List.mem_cons_of_mem f hk)

theorem Flagged.pop (hi : Flagged s) {f : Frame} {rest : List Frame} (hst : s.stack t = f :: rest) :
    Flagged (s.setStack t rest) :=
  hi.setStack fun _ hk _ => .inl (hst ▸ List.mem_cons_of_mem f hk)

theorem Flagged.push (hi : Flagged s) {f : Frame} (hf : f.pastFlag = false) :
    Flagged (s.setStack t (f :: s.stack t)) := by
  refine hi.setStack fun k hk hp => ?_
  rcases List.mem_cons.mp hk with rfl | hk
  · rw [hf] at hp; cases hp
  · exact .inl hk

theorem Flagged.step (hi : Flagged s) {l : Label} {s' : Sys} (h : step s l = some s') : Flagged s' := by
  cases l with
  | run t | stop t | interrupt t =>
    simp only [WorkerCalls.step, Option.ite_none_right_eq_some, Option.some.injEq] at h
    obtain ⟨-, rfl⟩ := h
    exact hi.push rfl
  | lock t =>
    simp only [WorkerCalls.step] at h
    split at h
    · next rest hst =>
      obtain ⟨lock, -, rfl⟩ := Option.map_eq_some_iff.mp h
      exact { hi.pass (g := .checking) hst (fun h => nomatch h) with }
    · next rest hst =>
      obtain ⟨lock, -, rfl⟩ := Option.map_eq_some_iff.mp h
      exact { hi.pass (g := .testing) hst (fun h => nomatch h) with }
    · next rest hst =>
      obtain ⟨mainLock, -, rfl⟩ := Option.map_eq_some_iff.mp h
      exact { hi.pass (g := .interrupting) hst (fun h => nomatch h) with }
    · cases h
  | check t =>
    simp only [WorkerCalls.step] at h
    split at h
    · next rest hst =>
      cases h
      exact hi.pass hst fun h => by split at h <;> cases h
    · next rest hst =>
      cases h
      exact hi.pass hst fun h => by split at h <;> cases h
    · cases h
  | mark t =>
    simp only [WorkerCalls.step] at h
    split at h <;> cases h
    exact ⟨fun _ _ _ _ => rfl, fun _ => rfl⟩
  | closeSession t =>
    simp only [WorkerCalls.step] at h
    split at h <;> cases h
    next rest hst =>
    have hc := hi.stack t .marked (by rw [hst]; exact List.mem_cons_self) rfl
    exact { hi.pass (g := .closing) hst (fun _ => hc) with }
  | closeV2 t =>
    simp only [WorkerCalls.step] at h
    split at h <;> cases h
    next rest hst =>
    have hc := hi.stack t .closing (by rw [hst]; exact List.mem_cons_self) rfl
    exact { hi.pass (g := .closingDb) hst (fun _ => hc) with db := fun _ => hc }
  | endClose t ok =>
    simp only [WorkerCalls.step] at h
    split at h
    · next rest hst =>
      have hc := hi.stack t .closingDb (by rw [hst]; exact List.mem_cons_self) rfl
      cases ok with
      | true => cases h; exact { hi.pass (g := .closingChild) hst (fun _ => hc) with }
      | false => cases h; exact hi.pass hst (fun h => nomatch h)
    · cases h
  | lockFails t =>
    simp only [WorkerCalls.step] at h
    split at h <;> cases h
    next rest hst => exact hi.pop hst
  | unlock t | unlockMain t =>
    simp only [WorkerCalls.step] at h
    split at h <;> cases h
    next rest hst => exact { hi.pop hst with }
  | endFn t | closeFails t | endChild t | sqlite3Interrupt t =>
    simp only [WorkerCalls.step] at h
    split at h <;> cases h
    next rest hst => exact hi.pass hst (fun h => nomatch h)

end

/-- **An interrupt is safe while the worker's flag is clear.** -/
theorem interrupt_run_safe (labels : List Label) (h : EveryStep step InterruptsOpen {} labels) :
    EveryStep step InterruptSafe {} labels := by
  refine everyStep_of_invariant (I := Flagged) (fun _ _ _ hi _ h => Flagged.step hi h) (fun s l hi ho => ?_)
    ⟨fun _ _ h => (nomatch h), fun h => (nomatch h)⟩ h
  cases l with
  | sqlite3Interrupt t =>
    show s.dbClosed = false
    cases hd : s.dbClosed with
    | false => rfl
    | true =>
      have hc : s.closed = false := ho
      rw [hi.db hd] at hc
      cases hc
  | _ => trivial

/-- A `cancel` while another thread is in its `fn`, then the close. -/
theorem interrupt_before_close :
    EveryStep step InterruptSafe {}
      ([.run 0, .lock 0, .check 0] ++ wholeInterrupt 1 ++ [.endFn 0, .unlock 0] ++ wholeStop 2) :=
  interrupt_run_safe _ (by decide)

/-- A `cancel` that comes after the close. -/
theorem interrupt_after_close : ¬ ∀ labels, EveryStep step InterruptSafe {} labels :=
  fun h => absurd (h (wholeRun 0 ++ wholeStop 0 ++ wholeInterrupt 1)) (by decide)

end WorkerCalls

end Sqlol

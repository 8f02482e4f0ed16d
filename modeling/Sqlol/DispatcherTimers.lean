/-
The timers of `LoomCoroutineDispatcher`: `invokeOnTimeout` and
`scheduleResumeAfterDelay`, each a task on a thread of its own that sleeps until
its mark and then goes on to the block or the continuation.

The sleep is a `FutureTask` inside the task, and nobody looks at how it ended. A
`dispose` that finds the thread in its sleep ends the sleep, and so does
`shutdownNow`: the thread goes on at once, before the deadline, and the
`cancel(false)` that `dispose` makes behind that does not stop a task that has
begun. A continuation that was cancelled takes no resume, so its cancellation does
no harm. `timer_run_on_time` says where nothing comes early or too late.

Time is that of `timeSource`, in nanoseconds: without the saturation of
`Duration`, and without its coarser unit, the millisecond, beyond 146 years.
`Thread.sleep` takes no more than a `Long` of nanoseconds.
-/
import Sqlol.Runs
import Sqlol.LoomScheduler

namespace Sqlol

namespace DispatcherTimers

open LoomScheduler (FutureState)

/-- `invokeOnTimeout` has a block, `scheduleResumeAfterDelay` a continuation. -/
inductive Kind where
  | block
  | continuation
  deriving DecidableEq

/-- A continuation takes one resume. -/
inductive Continuation where
  | active
  | resumed
  | cancelled
  deriving DecidableEq

/-- Where the timer's thread is. -/
inductive Pc where
  | submitted
  /-- In the body of the task, `sleep.run()` is next. -/
  | entered
  | sleeping (wake : Int)
  /-- `block.run()` or `resumeUndispatched` is next. -/
  | slept
  | inBlock
  | ended
  deriving DecidableEq

/-- `task` is the `DelayedTask` or `wrappedTask`, `sleep` the `FutureTask` inside. -/
structure Timer where
  kind : Kind
  expectedMark : Int
  /-- The executor took the task. -/
  accepted : Bool
  pc : Pc := .submitted
  task : FutureState := .new
  sleep : FutureState := .new
  interrupted : Bool := false
  continuation : Continuation := .active
  /-- `invokeOnCancellation` was called. -/
  registered : Bool := false
  /-- The `dispose` calls between their two `cancel`s, and those behind both. -/
  disposing : Nat := 0
  returning : Nat := 0
  /-- A `dispose` has returned. -/
  disposed : Bool := false

/-- The clock, and the timers by their numbers. -/
structure Sys where
  now : Int := 0
  isShutdown : Bool := false
  next : Nat := 0
  timers : Nat → Timer := fun _ => { kind := .block, expectedMark := 0, accepted := false, pc := .ended }

/-- The steps of the timers' threads and of those that dispose, cancel or shut down. -/
inductive Label where
  | tick (d : Nat)
  | invokeOnTimeout (timeMillis : Int)
  | scheduleResumeAfterDelay (timeMillis : Int)
  /-- `task.run()`, as far as its body. -/
  | enter (k : Nat)
  /-- `sleep.run()`, as far as `Thread.sleep`. -/
  | sleep (k : Nat)
  | wake (k : Nat)
  /-- `Thread.sleep` throws. -/
  | interrupted (k : Nat)
  | start (k : Nat)
  | finish (k : Nat) (throws : Bool)
  | resume (k : Nat)
  /-- `dispose`: `block.sleep.cancel(true)`, `cancel(false)`, and the return. -/
  | disposeSleep (k : Nat)
  | disposeTask (k : Nat)
  | disposeReturns (k : Nat)
  | invokeOnCancellation (k : Nat)
  | cancelContinuation (k : Nat)
  /-- The handler: `delayTask.cancel(true)`. -/
  | handler (k : Nat)
  | shutdown
  /-- `shutdownNow` comes to the timer's thread. -/
  | interrupt (k : Nat)

/-- The longest `Thread.sleep`, `Long.MAX_VALUE` nanoseconds. -/
def MAX_NANOS : Int := 9223372036854775807

/-- `markNow() + timeMillis.milliseconds`. -/
def Sys.mark (s : Sys) (timeMillis : Int) : Int := s.now + timeMillis * 1000000

/-- Another state of a timer. -/
def Sys.set (s : Sys) (k : Nat) (t : Timer) : Sys := { s with timers := Function.update s.timers k t }

/-- A new timer. -/
def Sys.add (s : Sys) (t : Timer) : Sys := { s.set s.next t with next := s.next + 1 }

/-- `Sleeping.run`: the time at which its sleep may return. -/
def Timer.until (t : Timer) (now : Int) : Int := now + min MAX_NANOS (max (t.expectedMark - now) 0)

/-- `sleep.cancel(true)`: the thread is interrupted when it is inside the sleep. -/
def Timer.cancelSleep (t : Timer) : Timer := match t.sleep, t.pc with
  | .new, .sleeping _ => { t with sleep := .cancelled, interrupted := true }
  | .new, _ => { t with sleep := .cancelled }
  | _, _ => t

/-- One step; none where it is not the next one. -/
def step (s : Sys) : Label → Option Sys
  | .tick d => some { s with now := s.now + d }
  | .invokeOnTimeout timeMillis =>
    let t : Timer := { kind := .block, expectedMark := s.mark timeMillis, accepted := !s.isShutdown }
    -- A rejected one has its sleep cancelled, and its block on a thread of its own at once.
    some (s.add (if s.isShutdown then { t with sleep := .cancelled, pc := .slept } else t))
  | .scheduleResumeAfterDelay timeMillis =>
    let t : Timer := { kind := .continuation, expectedMark := s.mark timeMillis, accepted := !s.isShutdown }
    some (s.add (if s.isShutdown then { t with continuation := .cancelled, pc := .ended } else t))
  | .enter k =>
    let t := s.timers k
    if t.pc = .submitted then some (s.set k { t with pc := if t.task = .new then .entered else .ended }) else none
  | .sleep k =>
    let t := s.timers k
    if t.pc = .entered then
      some (s.set k { t with pc := if t.sleep = .new then .sleeping (t.until s.now) else .slept })
    else none
  | .wake k =>
    let t := s.timers k
    match t.pc with
    | .sleeping wake =>
      if wake ≤ s.now then some (s.set k { t with pc := .slept, sleep := t.sleep.complete .normal }) else none
    | _ => none
  | .interrupted k =>
    let t := s.timers k
    match t.pc with
    | .sleeping _ =>
      if t.interrupted then
        some (s.set k { t with pc := .slept, sleep := t.sleep.complete .exceptional, interrupted := false })
      else none
    | _ => none
  | .start k =>
    let t := s.timers k
    if t.kind = .block ∧ t.pc = .slept then some (s.set k { t with pc := .inBlock }) else none
  | .finish k throws =>
    let t := s.timers k
    if t.pc = .inBlock then
      some (s.set k { t with
        pc := .ended
        task := if t.accepted then t.task.complete (if throws then .exceptional else .normal) else t.task })
    else none
  | .resume k =>
    let t := s.timers k
    if t.kind = .continuation ∧ t.pc = .slept then
      -- A continuation that was cancelled ignores it.
      some (s.set k { t with
        pc := .ended
        task := t.task.complete .normal
        continuation := if t.continuation = .active then .resumed else t.continuation })
    else none
  | .disposeSleep k =>
    let t := s.timers k
    if k < s.next ∧ t.kind = .block then some (s.set k { t.cancelSleep with disposing := t.disposing + 1 }) else none
  | .disposeTask k =>
    let t := s.timers k
    if 0 < t.disposing then
      some (s.set k { t with
        task := t.task.cancel
        disposing := t.disposing - 1
        returning := t.returning + 1 })
    else none
  | .disposeReturns k =>
    let t := s.timers k
    if 0 < t.returning then some (s.set k { t with returning := t.returning - 1, disposed := true }) else none
  | .invokeOnCancellation k =>
    let t := s.timers k
    if k < s.next ∧ t.kind = .continuation ∧ t.accepted then some (s.set k { t with registered := true }) else none
  | .cancelContinuation k =>
    let t := s.timers k
    if k < s.next ∧ t.kind = .continuation ∧ t.continuation = .active then
      some (s.set k { t with continuation := .cancelled })
    else none
  | .handler k =>
    let t := s.timers k
    if t.kind = .continuation ∧ t.registered ∧ t.continuation = .cancelled then some (s.set k t.cancelSleep) else none
  | .shutdown => some { s with isShutdown := true }
  | .interrupt k =>
    let t := s.timers k
    if t.pc = .ended then none else some (s.set k { t with interrupted := true })

/-! ## What is claimed -/

/-- A block does not start before its deadline nor behind a `dispose`, and a
continuation is not resumed before its deadline. -/
def OnTime (s : Sys) : Label → Prop
  | .start k => (s.timers k).accepted = true → (s.timers k).kind = .block → (s.timers k).pc = .slept →
    (s.timers k).expectedMark ≤ s.now ∧ (s.timers k).disposed = false
  | .resume k => (s.timers k).accepted = true → (s.timers k).pc = .slept → (s.timers k).continuation = .active →
    (s.timers k).expectedMark ≤ s.now
  | _ => True

instance (s : Sys) : ∀ l, Decidable (OnTime s l)
  | .start _ => inferInstanceAs (Decidable (_ → _ → _ → _ ∧ _))
  | .resume _ => inferInstanceAs (Decidable (_ → _ → _ → _))
  | .tick _ | .invokeOnTimeout _ | .scheduleResumeAfterDelay _ | .enter _ | .sleep _ | .wake _ | .interrupted _
  | .finish .. | .disposeSleep _ | .disposeTask _ | .disposeReturns _ | .invokeOnCancellation _
  | .cancelContinuation _ | .handler _ | .shutdown | .interrupt _ => .isTrue trivial

/-- The thread may go on: the deadline is past, or nobody waits for it. -/
def Timer.Due (now : Int) (t : Timer) : Prop :=
  t.expectedMark ≤ now ∨ (t.kind = .continuation ∧ t.continuation ≠ .active)

instance (now : Int) (t : Timer) : Decidable (t.Due now) := inferInstanceAs (Decidable (_ ∨ _ ∧ _))

/-- In the body of the task, the sleep is not over. -/
def Pc.waits : Pc → Bool
  | .entered | .sleeping _ => true
  | _ => false

/-- In the body of the task, the block has not started. -/
def Pc.before : Pc → Bool
  | .entered | .sleeping _ | .slept => true
  | _ => false

/-- The task will wait, or does. -/
def Timer.Waits (t : Timer) : Prop := t.pc.waits = true ∨ (t.pc = .submitted ∧ t.task = .new)

instance (t : Timer) : Decidable t.Waits := inferInstanceAs (Decidable (_ ∨ _ ∧ _))

/-- No sleep is ended before its deadline by an interrupt or by a `dispose`, no task
begins between the two `cancel`s of a `dispose`, and no `dispose` returns between the
beginning of a task and that of its block. -/
def Undisturbed (s : Sys) : Label → Prop
  | .invokeOnTimeout timeMillis | .scheduleResumeAfterDelay timeMillis => timeMillis * 1000000 ≤ MAX_NANOS
  | .enter k => (s.timers k).accepted = true → (s.timers k).task = .new →
    (s.timers k).sleep = .new ∨ (s.timers k).Due s.now
  | .interrupt k => (s.timers k).accepted = true → (s.timers k).Waits → (s.timers k).Due s.now
  | .disposeSleep k => (s.timers k).accepted = true → (s.timers k).pc.waits = true → (s.timers k).Due s.now
  | .disposeReturns k => (s.timers k).accepted = true → (s.timers k).pc.before = false
  | _ => True

instance (s : Sys) : ∀ l, Decidable (Undisturbed s l)
  | .invokeOnTimeout _ | .scheduleResumeAfterDelay _ => inferInstanceAs (Decidable (_ ≤ _))
  | .enter _ => inferInstanceAs (Decidable (_ → _ → _ ∨ _))
  | .interrupt _ | .disposeSleep _ => inferInstanceAs (Decidable (_ → _ → _))
  | .disposeReturns _ => inferInstanceAs (Decidable (_ → _))
  | .tick _ | .sleep _ | .wake _ | .interrupted _ | .start _ | .finish .. | .resume _ | .disposeTask _
  | .invokeOnCancellation _ | .cancelContinuation _ | .handler _ | .shutdown => .isTrue trivial

/-! ## What holds of a timer -/

/-- A thread that goes on is due, and one that may wake or be woken will be. -/
structure Timer.Good (now : Int) (t : Timer) : Prop where
  near : t.expectedMark ≤ now + MAX_NANOS
  gone : t.disposed = true ∨ 0 < t.returning → t.task ≠ .new
  kept : t.pc.before = true → t.disposed = false
  flag : t.interrupted = true → t.Waits → t.Due now
  off : t.pc = .entered → t.sleep = .new ∨ t.Due now
  long : ∀ wake, t.pc = .sleeping wake → t.expectedMark ≤ wake ∨ t.Due now
  due : t.pc = .slept → t.Due now

section
variable {now : Int} {t : Timer}

theorem Timer.Due.later {now' : Int} (h : t.Due now) (hnow : now ≤ now') : t.Due now' :=
  h.imp_left fun hmark => Int.le_trans hmark hnow

theorem Timer.Good.later {now' : Int} (h : t.Good now) (hnow : now ≤ now') : t.Good now' where
  near := Int.le_trans h.near (by omega)
  gone := h.gone
  kept := h.kept
  flag hi hw := (h.flag hi hw).later hnow
  off hpc := (h.off hpc).imp_right fun hd => hd.later hnow
  long wake hpc := (h.long wake hpc).imp_right fun hd => hd.later hnow
  due hpc := (h.due hpc).later hnow

/-- A thread that leaves the task has nothing to wait for. -/
theorem Timer.Good.leave (h : t.Good now) {pc : Pc} (hpc : pc = .inBlock ∨ pc = .ended) {task : FutureState}
    {c : Continuation} (htask : t.task ≠ .new → task ≠ .new) :
    Timer.Good now { t with pc := pc, task := task, continuation := c } := by
  refine ⟨h.near, fun hd => htask (h.gone hd), ?_, fun _ => ?_, ?_, ?_, ?_⟩ <;>
    rcases hpc with rfl | rfl <;> simp [Timer.Waits, Pc.before, Pc.waits]

theorem Timer.Good.enter (h : t.Good now) (hpc : t.pc = .submitted)
    (hok : t.task = .new → t.sleep = .new ∨ t.Due now) :
    Timer.Good now { t with pc := if t.task = .new then .entered else .ended } := by
  split
  · next htask =>
    have hdisposed : t.disposed = false := Bool.eq_false_iff.mpr fun hd => h.gone (.inl hd) htask
    exact {
      near := h.near
      gone := h.gone
      kept := fun _ => hdisposed
      flag := fun hi _ => h.flag hi (.inr ⟨hpc, htask⟩)
      off := fun _ => hok htask
      long := fun _ hw => nomatch hw
      due := fun hs => nomatch hs }
  · exact h.leave (.inr rfl) id

theorem Timer.Good.until_ge (h : t.Good now) : t.expectedMark ≤ t.until now := by
  have := h.near
  unfold Timer.until
  omega

theorem Timer.Good.sleep (h : t.Good now) (hpc : t.pc = .entered) :
    Timer.Good now { t with pc := if t.sleep = .new then .sleeping (t.until now) else .slept } := by
  have hkept := h.kept (by rw [hpc]; rfl)
  split
  · exact {
      near := h.near
      gone := h.gone
      kept := fun _ => hkept
      flag := fun hi _ => h.flag hi (.inl (by rw [hpc]; rfl))
      off := fun he => nomatch he
      long := fun wake hw => .inl (Pc.sleeping.inj hw ▸ h.until_ge)
      due := fun hs => nomatch hs }
  · next hsleep =>
    exact {
      near := h.near
      gone := h.gone
      kept := fun _ => hkept
      flag := fun _ hw => hw.elim (fun hw => nomatch hw) fun hw => nomatch hw.1
      off := fun he => nomatch he
      long := fun _ hw => nomatch hw
      due := fun _ => (h.off hpc).resolve_left hsleep }

/-- The sleep has ended, one way or the other. -/
theorem Timer.Good.slept (h : t.Good now) {wake : Int} (hpc : t.pc = .sleeping wake) (hdue : t.Due now)
    {sleep : FutureState} {interrupted : Bool} :
    Timer.Good now { t with pc := .slept, sleep := sleep, interrupted := interrupted } where
  near := h.near
  gone := h.gone
  kept := fun _ => h.kept (by rw [hpc]; rfl)
  flag := fun _ hw => hw.elim (fun hw => nomatch hw) fun hw => nomatch hw.1
  off := fun he => nomatch he
  long := fun _ hw => nomatch hw
  due := fun _ => hdue

theorem Timer.cancelSleep_accepted : t.cancelSleep.accepted = t.accepted := by
  unfold Timer.cancelSleep
  split <;> rfl

theorem Timer.Good.cancelSleep (h : t.Good now) (hok : t.pc.waits = true → t.Due now) : t.cancelSleep.Good now := by
  unfold Timer.cancelSleep
  split
  · next wake hsleep hpc =>
    have hdue : t.Due now := hok (by rw [hpc]; rfl)
    exact { h with
      flag := fun _ _ => hdue
      off := fun _ => .inr hdue }
  · next hsleep hpc =>
    exact { h with off := fun he => .inr (hok (by rw [he]; rfl)) }
  · exact h

end

/-! ## The run -/

/-- Every timer that was accepted is as it should be at this time. -/
def Inv (s : Sys) : Prop := ∀ k, (s.timers k).accepted = true → (s.timers k).Good s.now

theorem inv_start : Inv {} := fun _ h => nomatch h

section
variable {s s' : Sys} {k : Nat}

theorem Inv.set (hi : Inv s) {t : Timer} (ht : t.accepted = true → t.Good s.now) : Inv (s.set k t) := by
  intro j hj
  rcases eq_or_ne j k with rfl | hne
  · simp only [Sys.set, Function.update_self] at hj ⊢
    exact ht hj
  · simp only [Sys.set, Function.update_of_ne hne] at hj ⊢
    exact hi j hj

/-- A timer that nothing has happened to. -/
theorem good_new {kind : Kind} {timeMillis : Int} {accepted : Bool} (hlong : timeMillis * 1000000 ≤ MAX_NANOS) :
    Timer.Good s.now { kind := kind, expectedMark := s.mark timeMillis, accepted := accepted } where
  near := by
    simp only [Sys.mark]
    omega
  gone := by simp
  kept := by simp
  flag := by simp
  off := by simp
  long := by simp
  due := by simp

/-- A timer is submitted; one that the executor refuses is not spoken of. -/
theorem Inv.add (hi : Inv s) {kind : Kind} {timeMillis : Int} {refused : Timer}
    (hlong : timeMillis * 1000000 ≤ MAX_NANOS) (hrefused : s.isShutdown = true → refused.accepted = false) :
    Inv (s.add (if s.isShutdown then refused
      else { kind := kind, expectedMark := s.mark timeMillis, accepted := !s.isShutdown })) := by
  refine hi.set fun ha => ?_
  cases hs : s.isShutdown with
  | false => exact good_new hlong
  | true =>
    rw [hs, if_pos rfl, hrefused hs] at ha
    cases ha

theorem Inv.step {l : Label} (hi : Inv s) (hu : Undisturbed s l) (h : step s l = some s') : Inv s' := by
  cases l with
  | tick d =>
    cases h
    exact fun k hk => (hi k hk).later (by simp only; omega)
  | invokeOnTimeout timeMillis =>
    cases h
    exact hi.add hu fun hs => by simp [hs]
  | scheduleResumeAfterDelay timeMillis =>
    cases h
    exact hi.add hu fun hs => by simp [hs]
  | enter k =>
    simp only [DispatcherTimers.step] at h
    split at h <;> cases h
    next hpc => exact hi.set fun ha => (hi k ha).enter hpc (hu ha)
  | sleep k =>
    simp only [DispatcherTimers.step] at h
    split at h <;> cases h
    next hpc => exact hi.set fun ha => (hi k ha).sleep hpc
  | wake k =>
    simp only [DispatcherTimers.step] at h
    split at h
    · next wake hpc =>
      split at h <;> cases h
      next hle =>
      refine hi.set fun ha => (hi k ha).slept hpc ?_
      exact ((hi k ha).long wake hpc).elim (fun hmark => .inl (Int.le_trans hmark hle)) id
    · cases h
  | interrupted k =>
    simp only [DispatcherTimers.step] at h
    split at h
    · next wake hpc =>
      split at h <;> cases h
      next hflag =>
      refine hi.set fun ha => (hi k ha).slept hpc ?_
      exact (hi k ha).flag hflag (.inl (by rw [hpc]; rfl))
    · cases h
  | start k =>
    simp only [DispatcherTimers.step] at h
    split at h <;> cases h
    exact hi.set fun ha => (hi k ha).leave (.inl rfl) id
  | finish k throws =>
    simp only [DispatcherTimers.step] at h
    split at h <;> cases h
    refine hi.set fun ha => (hi k ha).leave (.inr rfl) fun _ => ?_
    rw [if_pos ha]
    exact FutureState.complete_ne_new (by split <;> simp)
  | resume k =>
    simp only [DispatcherTimers.step] at h
    split at h <;> cases h
    exact hi.set fun ha => (hi k ha).leave (.inr rfl) fun _ => FutureState.complete_ne_new (by simp)
  | disposeSleep k =>
    simp only [DispatcherTimers.step] at h
    split at h <;> cases h
    refine hi.set fun ha => ?_
    have ha : (s.timers k).accepted = true := Timer.cancelSleep_accepted.symm.trans ha
    exact { (hi k ha).cancelSleep (hu ha) with }
  | disposeTask k =>
    simp only [DispatcherTimers.step] at h
    split at h <;> cases h
    refine hi.set fun ha => ?_
    have hg := hi k ha
    exact { hg with
      gone := fun _ => FutureState.cancel_ne_new _
      flag := fun hf hw => hg.flag hf (hw.imp_right fun hw => absurd hw.2 (FutureState.cancel_ne_new _)) }
  | disposeReturns k =>
    simp only [DispatcherTimers.step] at h
    split at h <;> cases h
    next hpos =>
    refine hi.set fun ha => ?_
    have hg := hi k ha
    exact { hg with
      gone := fun _ => hg.gone (.inr hpos)
      kept := fun hb => absurd hb (by simp [hu ha]) }
  | invokeOnCancellation k =>
    simp only [DispatcherTimers.step] at h
    split at h <;> cases h
    exact hi.set fun ha => { hi k ha with }
  | cancelContinuation k =>
    simp only [DispatcherTimers.step] at h
    split at h <;> cases h
    next hc =>
    refine hi.set fun ha => ?_
    have hdue : ∀ now, Timer.Due now { s.timers k with continuation := .cancelled } := fun _ =>
      .inr ⟨hc.2.1, by simp⟩
    exact { hi k ha with
      flag := fun _ _ => hdue _
      off := fun _ => .inr (hdue _)
      long := fun _ _ => .inr (hdue _)
      due := fun _ => hdue _ }
  | handler k =>
    simp only [DispatcherTimers.step] at h
    split at h <;> cases h
    next hc =>
    refine hi.set fun ha => ?_
    have ha : (s.timers k).accepted = true := Timer.cancelSleep_accepted.symm.trans ha
    exact (hi k ha).cancelSleep fun _ => .inr ⟨hc.1, by simp [hc.2.2]⟩
  | shutdown =>
    cases h
    exact hi
  | interrupt k =>
    simp only [DispatcherTimers.step] at h
    split at h <;> cases h
    exact hi.set fun ha => { hi k ha with flag := fun _ hw => hu ha hw }

/-- Whoever goes on is due. -/
theorem Inv.onTime {l : Label} (hi : Inv s) : OnTime s l := by
  cases l with
  | start k =>
    intro ha hkind hpc
    have hg := hi k ha
    refine ⟨(hg.due hpc).resolve_right fun hc => ?_, hg.kept (by rw [hpc]; rfl)⟩
    rw [hkind] at hc
    cases hc.1
  | resume k =>
    intro ha hpc hactive
    exact ((hi k ha).due hpc).resolve_right fun hc => hc.2 hactive
  | _ => trivial

end

/-- **No block starts before its deadline or behind a `dispose`, and no continuation
is resumed before its deadline**, over every interleaving in which no wait is cut
short and no `dispose` returns into a task that has begun. -/
theorem timer_run_on_time (labels : List Label) (h : EveryStep step Undisturbed {} labels) :
    EveryStep step OnTime {} labels :=
  everyStep_of_invariant (fun _ _ _ hi hu hs => hi.step hu hs) (fun _ _ hi _ => hi.onTime) inv_start h

/-- A block that is disposed of before its thread begins, one that starts at its deadline and is
disposed of then, and a continuation that is cancelled in its sleep. -/
def undisturbed : List Label :=
  [.invokeOnTimeout 5, .disposeSleep 0, .disposeTask 0, .disposeReturns 0, .enter 0, .invokeOnTimeout 5, .enter 1,
    .sleep 1, .scheduleResumeAfterDelay 9, .invokeOnCancellation 2, .enter 2, .sleep 2, .tick 5000000, .wake 1,
    .start 1, .disposeSleep 1, .disposeTask 1, .disposeReturns 1, .cancelContinuation 2, .handler 2, .interrupted 2,
    .resume 2, .finish 1 false]

theorem timer_run_on_time_undisturbed :
    (run step {} undisturbed).map (fun s => ((s.timers 0).pc, (s.timers 1).disposed, (s.timers 2).continuation)) =
      some (.ended, true, .cancelled) ∧
    EveryStep step OnTime {} undisturbed :=
  ⟨by decide +kernel, timer_run_on_time undisturbed (by decide +kernel)⟩

/-- `dispose` in the sleep of a block that is due in a second, and between the sleep and the block; and
`shutdownNow` in the sleep of a continuation. -/
theorem timer_early :
    ¬ EveryStep step OnTime {} [.invokeOnTimeout 1000, .enter 0, .sleep 0, .disposeSleep 0, .interrupted 0, .start 0] ∧
    ¬ EveryStep step OnTime {} [.invokeOnTimeout 1, .enter 0, .sleep 0, .tick 1000000, .wake 0, .disposeSleep 0,
      .disposeTask 0, .disposeReturns 0, .start 0] ∧
    ¬ EveryStep step OnTime {} [.scheduleResumeAfterDelay 1000, .invokeOnCancellation 0, .enter 0, .sleep 0,
      .interrupt 0, .interrupted 0, .resume 0] := by
  decide +kernel

end DispatcherTimers

end Sqlol

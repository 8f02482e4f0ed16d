/-
`LoomScheduledExecutorService`: one-shot, fixed-rate and fixed-delay tasks, each
run on a thread of its own that first sleeps until the task's mark.

The sleep is a `FutureTask` of its own (`sleeper`), so that `cancel` can end it.
It can end in three ways, normally, cancelled, or with the exception of an
interrupted `Thread.sleep`, and it is what the three task classes make of the
third that the facts about this model turn on. A periodic task submits itself
again from inside its run.

Time is that of `timeSource`, in nanoseconds and without the saturation of
`Duration`. A sleep returns normally only when its time has passed, and throws
only on a thread that was interrupted. `cancel` is up to three steps: it reads
`sleepTask`, cancels that, and then the task itself.
-/
import Mathlib.Data.Int.Notation
import Mathlib.Logic.Function.Basic
import Mathlib.Tactic.Common

namespace Sqlol

namespace LoomScheduler

/-- The outcome of a `FutureTask`, `new` while it has none. -/
inductive FutureState where
  | new
  | normal
  | exceptional
  | cancelled
  deriving DecidableEq

/-- `DelayedTask`, `FixedRateTask`, `PeriodicTask`. -/
inductive Kind where
  | delayed
  | fixedRate (period : Int)
  | fixedDelay (period : Int)
  deriving DecidableEq

/-- The sleep of a `DelayedTask` is `childTask`, there from the beginning; here it
is the `sleepTask` that is never cleared. `starts` and `stops` note when its body
began and ended; no step reads them. -/
structure BaseTask where
  kind : Kind
  mark : Int
  nextMark : Int
  state : FutureState := .new
  sleepTask : Option Nat := none
  starts : List Int := []
  stops : List Int := []

/-- Where a task's `run` is. -/
inductive Pc where
  | started
  /-- `sleepTask` is set. -/
  | prepared
  | sleeping (wake : Int)
  | slept
  /-- `sleepTask` is null again. -/
  | cleared
  /-- `super.run()` or `runAndReset()` is next. -/
  | ready
  | inBody
  | ran (executed : Bool)
  | continuing
  /-- `nextMark` is set. -/
  | rescheduling
  | ended
  deriving DecidableEq

/-- A thread of the executor, with the sleep of its run. -/
structure Thread where
  task : Nat
  pc : Pc := .started
  sleeper : FutureState := .new
  interrupted : Bool := false

/-- A `cancel` call under way. -/
inductive Cancel where
  | sleeper (t th : Nat)
  | super (t : Nat)
  deriving DecidableEq

/-- Tasks and threads are numbered as they are made. -/
structure Sys where
  now : Int := 0
  isShutdown : Bool := false
  nextTask : Nat := 0
  tasks : Nat → BaseTask := fun _ => ⟨.delayed, 0, 0, .new, none, [], []⟩
  nextThread : Nat := 0
  threads : Nat → Thread := fun _ => ⟨0, .ended, .new, false⟩
  cancels : List Cancel := []

/-- The steps of the scheduler's threads and of its users. -/
inductive Label where
  | tick (d : Nat)
  | schedule (kind : Kind) (delay : Int)
  /-- `if (isCancelled) return`, and `sleepTask = sleeper`. -/
  | enter (th : Nat)
  /-- `sleeper.run()`, as far as `Thread.sleep`. -/
  | sleep (th : Nat)
  | wake (th : Nat)
  /-- `Thread.sleep` throws. -/
  | interrupted (th : Nat)
  /-- `sleepTask = null`. -/
  | clear (th : Nat)
  /-- The `if` behind the sleep. -/
  | test (th : Nat)
  /-- `super.run()` or `runAndReset()`, as far as the body. -/
  | call (th : Nat)
  /-- The body returns or throws. -/
  | finish (th : Nat) (throws : Bool)
  /-- `if (!executed || isCancelled || rescheduler.isShutdown) return`. -/
  | check (th : Nat)
  | advance (th : Nat)
  | resubmit (th : Nat)
  | cancel (t : Nat)
  | cancelSleeper (t th : Nat)
  | cancelSuper (t : Nat) (mayInterrupt : Bool)
  | shutdown
  | shutdownNow

/-- `FutureTask.cancel`, of the outcome: only a task that has none takes it. -/
def FutureState.cancel : FutureState → FutureState
  | .new => .cancelled
  | s => s

/-- `set` and `setException`, likewise. -/
def FutureState.complete : FutureState → FutureState → FutureState
  | .new, outcome => outcome
  | s, _ => s

/-- A period is positive. -/
def Kind.valid : Kind → Bool
  | .delayed => true
  | .fixedRate period | .fixedDelay period => 0 < period

namespace Sys

/-- Another state of a task. -/
def setTask (s : Sys) (t : Nat) (task : BaseTask) : Sys := { s with tasks := Function.update s.tasks t task }

/-- Another state of a thread. -/
def setThread (s : Sys) (th : Nat) (thread : Thread) : Sys :=
  { s with threads := Function.update s.threads th thread }

/-- The thread goes on at `pc`. -/
def goto (s : Sys) (th : Nat) (pc : Pc) : Sys := s.setThread th { s.threads th with pc }

/-- The task a thread runs. -/
def taskOf (s : Sys) (th : Nat) : BaseTask := s.tasks (s.threads th).task

/-- Another state of the task a thread runs. -/
def setTaskOf (s : Sys) (th : Nat) (task : BaseTask) : Sys := s.setTask (s.threads th).task task

/-- `actualImp.execute(task)` on an executor that is not shut down. -/
def execute (s : Sys) (t : Nat) : Sys :=
  { s.setThread s.nextThread { task := t } with nextThread := s.nextThread + 1 }

/-- `sleepTask.cancel(true)`: the thread is interrupted when it is inside the sleep. -/
def cancelSleep (s : Sys) (th : Nat) : Sys :=
  let thread := s.threads th
  match thread.sleeper, thread.pc with
  | .new, .sleeping _ => s.setThread th { thread with sleeper := .cancelled, interrupted := true }
  | .new, _ => s.setThread th { thread with sleeper := .cancelled }
  | _, _ => s

/-- `super.cancel(mayInterrupt)`: the thread is interrupted when it is inside the body. -/
def cancelTask (s : Sys) (t : Nat) (mayInterrupt : Bool) : Sys :=
  { s.setTask t { s.tasks t with state := (s.tasks t).state.cancel } with
    threads := fun th =>
      if mayInterrupt ∧ (s.threads th).task = t ∧ (s.threads th).pc = .inBody then
        { s.threads th with interrupted := true }
      else s.threads th }

/-- `cancel(false)` of a task that is not taken again. -/
def rejected (s : Sys) (t : Nat) : Sys :=
  match (s.tasks t).sleepTask with
  | some th => (s.cancelSleep th).cancelTask t false
  | none => s.cancelTask t false

end Sys

/-- One step; none where it is not the next one. -/
def step (s : Sys) : Label → Option Sys
  | .tick d => some { s with now := s.now + d }
  | .schedule kind delay =>
    -- An invalid period throws, and so does `execute` when the executor is shut down.
    if kind.valid ∧ !s.isShutdown then
      let mark := s.now + max delay 0
      let sleepTask := if kind = .delayed then some s.nextThread else none
      some { (s.setTask s.nextTask { kind, mark, nextMark := mark, sleepTask }).execute s.nextTask with
        nextTask := s.nextTask + 1 }
    else some s
  | .enter th => match (s.taskOf th).kind, (s.threads th).pc with
    | .delayed, _ => none
    | _, .started =>
      some (if (s.taskOf th).state = .cancelled then s.goto th .ended
        else (s.setTaskOf th { s.taskOf th with sleepTask := some th }).goto th .prepared)
    | _, _ => none
  | .sleep th => match (s.taskOf th).kind, (s.threads th).pc with
    | .delayed, .started | .fixedRate _, .prepared | .fixedDelay _, .prepared =>
      -- A sleep that was cancelled before it began does not begin.
      some (if (s.threads th).sleeper = .new then
          s.goto th (.sleeping (s.now + max ((s.taskOf th).nextMark - s.now) 0))
        else s.goto th .slept)
    | _, _ => none
  | .wake th => match (s.threads th).pc with
    | .sleeping wake =>
      if wake ≤ s.now then
        some (s.setThread th { s.threads th with pc := .slept, sleeper := (s.threads th).sleeper.complete .normal })
      else none
    | _ => none
  | .interrupted th => match (s.threads th).pc with
    | .sleeping _ =>
      if (s.threads th).interrupted then
        some (s.setThread th { s.threads th with
          pc := .slept, sleeper := (s.threads th).sleeper.complete .exceptional, interrupted := false })
      else none
    | _ => none
  | .clear th => match (s.taskOf th).kind, (s.threads th).pc with
    | .delayed, _ => none
    | _, .slept => some ((s.setTaskOf th { s.taskOf th with sleepTask := none }).goto th .cleared)
    | _, _ => none
  | .test th => match (s.taskOf th).kind, (s.threads th).pc with
    | .delayed, .slept =>
      -- `super.run()` comes either way, and does nothing for a task that is cancelled.
      some ((if (s.threads th).sleeper = .cancelled then s.cancelTask (s.threads th).task false else s).goto th .ready)
    | .fixedRate _, .cleared | .fixedDelay _, .cleared =>
      some (s.goto th (if (s.taskOf th).state = .cancelled ∨ (s.threads th).sleeper = .cancelled then .ended
        else .ready))
    | _, _ => none
  | .call th => match (s.threads th).pc with
    | .ready =>
      some (if (s.taskOf th).state = .new then
          (s.setTaskOf th { s.taskOf th with starts := (s.taskOf th).starts ++ [s.now] }).goto th .inBody
        else s.goto th (if (s.taskOf th).kind = .delayed then .ended else .ran false))
    | _ => none
  | .finish th throws => match (s.threads th).pc with
    | .inBody =>
      let task := { s.taskOf th with stops := (s.taskOf th).stops ++ [s.now] }
      if task.kind = .delayed then
        some ((s.setTaskOf th { task with
          state := task.state.complete (if throws then .exceptional else .normal) }).goto th .ended)
      else if throws then
        some ((s.setTaskOf th { task with state := task.state.complete .exceptional }).goto th (.ran false))
      else some ((s.setTaskOf th task).goto th (.ran (task.state = .new)))
    | _ => none
  | .check th => match (s.threads th).pc with
    | .ran executed =>
      some (s.goto th (if !executed ∨ (s.taskOf th).state = .cancelled ∨ s.isShutdown then .ended else .continuing))
    | _ => none
  | .advance th => match (s.taskOf th).kind, (s.threads th).pc with
    | .fixedRate period, .continuing =>
      some ((s.setTaskOf th { s.taskOf th with nextMark := (s.taskOf th).nextMark + period }).goto th .rescheduling)
    | .fixedDelay period, .continuing =>
      -- `mark + mark.elapsedNow() + period`
      some ((s.setTaskOf th { s.taskOf th with
        nextMark := (s.taskOf th).mark + (s.now - (s.taskOf th).mark) + period }).goto th .rescheduling)
    | _, _ => none
  | .resubmit th => match (s.threads th).pc with
    | .rescheduling =>
      let t := (s.threads th).task
      -- `RejectedExecutionException` when the executor is shut down.
      some (if s.isShutdown then (s.rejected t).goto th .ended else (s.goto th .ended).execute t)
    | _ => none
  | .cancel t =>
    if t < s.nextTask then
      some { s with cancels := (match (s.tasks t).sleepTask with
        | some th => .sleeper t th
        | none => .super t) :: s.cancels }
    else none
  | .cancelSleeper t th =>
    if .sleeper t th ∈ s.cancels then
      some { s.cancelSleep th with cancels := .super t :: s.cancels.erase (.sleeper t th) }
    else none
  | .cancelSuper t mayInterrupt =>
    if .super t ∈ s.cancels then
      some { s.cancelTask t mayInterrupt with cancels := s.cancels.erase (.super t) }
    else none
  | .shutdown => some { s with isShutdown := true }
  | .shutdownNow => some { s with
      isShutdown := true
      threads := fun th =>
        if (s.threads th).pc = .ended then s.threads th else { s.threads th with interrupted := true } }

/-! ## Steps that move no thread -/

/-- Time passes, and outcomes and sleeps are cancelled; no thread moves. -/
structure Softens (s s' : Sys) : Prop where
  now : s.now ≤ s'.now
  nextTask : s'.nextTask = s.nextTask
  nextThread : s'.nextThread = s.nextThread
  tasks : ∀ t, ∃ state, s'.tasks t = { s.tasks t with state } ∧ (state = .new → (s.tasks t).state = .new)
  task : ∀ th, (s'.threads th).task = (s.threads th).task
  pc : ∀ th, (s'.threads th).pc = (s.threads th).pc
  sleeper : ∀ th, (s'.threads th).sleeper = (s.threads th).sleeper ∨ (s'.threads th).sleeper = .cancelled

theorem FutureState.cancel_ne_new (x : FutureState) : x.cancel ≠ .new := by
  cases x <;> simp [FutureState.cancel]

theorem FutureState.complete_ne_new {x outcome : FutureState} (h : outcome ≠ .new) : x.complete outcome ≠ .new := by
  cases x <;> simp [FutureState.complete, h]

theorem Softens.cancelTask (s : Sys) (t : Nat) (mayInterrupt : Bool) : Softens s (s.cancelTask t mayInterrupt) where
  now := Int.le_refl _
  nextTask := rfl
  nextThread := rfl
  tasks u := by
    rcases eq_or_ne u t with rfl | hne
    · refine ⟨(s.tasks u).state.cancel, ?_, fun h => absurd h (FutureState.cancel_ne_new _)⟩
      simp [Sys.cancelTask, Sys.setTask]
    · exact ⟨(s.tasks u).state, by simp [Sys.cancelTask, Sys.setTask, hne], id⟩
  task th := by
    simp only [Sys.cancelTask]
    split <;> rfl
  pc th := by
    simp only [Sys.cancelTask]
    split <;> rfl
  sleeper th := by
    simp only [Sys.cancelTask]
    split <;> exact .inl rfl

theorem Softens.refl (s : Sys) : Softens s s where
  now := Int.le_refl _
  nextTask := rfl
  nextThread := rfl
  tasks t := ⟨(s.tasks t).state, rfl, id⟩
  task _ := rfl
  pc _ := rfl
  sleeper _ := .inl rfl

/-- The thread of a sleep that is cancelled. -/
theorem Softens.setThread {s : Sys} {th : Nat} {thread : Thread} (htask : thread.task = (s.threads th).task)
    (hpc : thread.pc = (s.threads th).pc) (hsleeper : thread.sleeper = .cancelled) :
    Softens s (s.setThread th thread) where
  now := Int.le_refl _
  nextTask := rfl
  nextThread := rfl
  tasks t := ⟨(s.tasks t).state, rfl, id⟩
  task u := by
    rcases eq_or_ne u th with rfl | hne
    · simpa [Sys.setThread] using htask
    · simp [Sys.setThread, hne]
  pc u := by
    rcases eq_or_ne u th with rfl | hne
    · simpa [Sys.setThread] using hpc
    · simp [Sys.setThread, hne]
  sleeper u := by
    rcases eq_or_ne u th with rfl | hne
    · exact .inr (by simpa [Sys.setThread] using hsleeper)
    · exact .inl (by simp [Sys.setThread, hne])

theorem Softens.cancelSleep (s : Sys) (th : Nat) : Softens s (s.cancelSleep th) := by
  simp only [Sys.cancelSleep]
  split
  · exact .setThread rfl rfl rfl
  · exact .setThread rfl rfl rfl
  · exact .refl s

theorem Softens.trans {a b c : Sys} (hab : Softens a b) (hbc : Softens b c) : Softens a c where
  now := Int.le_trans hab.now hbc.now
  nextTask := hbc.nextTask.trans hab.nextTask
  nextThread := hbc.nextThread.trans hab.nextThread
  tasks t := by
    obtain ⟨x, hb, hx⟩ := hab.tasks t
    obtain ⟨y, hc, hy⟩ := hbc.tasks t
    refine ⟨y, by rw [hc, hb], fun h => ?_⟩
    rw [hb] at hy
    exact hx (hy h)
  task th := (hbc.task th).trans (hab.task th)
  pc th := (hbc.pc th).trans (hab.pc th)
  sleeper th := by
    rcases hbc.sleeper th with h | h
    · rw [h]; exact hab.sleeper th
    · exact .inr h

theorem Softens.rejected (s : Sys) (t : Nat) : Softens s (s.rejected t) := by
  simp only [Sys.rejected]
  split
  · exact (Softens.cancelSleep s _).trans (.cancelTask _ t false)
  · exact .cancelTask s t false

/-- The labels that move no thread. -/
def Label.still : Label → Bool
  | .tick _ | .cancel _ | .cancelSleeper .. | .cancelSuper .. | .shutdown | .shutdownNow => true
  | .schedule .. | .enter _ | .sleep _ | .wake _ | .interrupted _ | .clear _ | .test _ | .call _ | .finish .. | .check _
  | .advance _ | .resubmit _ => false

theorem Softens.step {s s' : Sys} {l : Label} (hl : l.still = true) (h : step s l = some s') : Softens s s' := by
  cases l with
  | tick d =>
    cases h
    refine { Softens.refl s with now := ?_ }
    dsimp only
    omega
  | cancel t =>
    simp only [LoomScheduler.step] at h
    split at h <;> cases h
    exact { Softens.refl s with }
  | cancelSleeper t th =>
    simp only [LoomScheduler.step] at h
    split at h <;> cases h
    exact { Softens.cancelSleep s th with }
  | cancelSuper t mayInterrupt =>
    simp only [LoomScheduler.step] at h
    split at h <;> cases h
    exact { Softens.cancelTask s t mayInterrupt with }
  | shutdown =>
    cases h
    exact { Softens.refl s with }
  | shutdownNow =>
    cases h
    refine { Softens.refl s with task := ?_, pc := ?_, sleeper := ?_ }
    · intro th
      dsimp only
      split <;> rfl
    · intro th
      dsimp only
      split <;> rfl
    · intro th
      dsimp only
      split <;> exact .inl rfl
  | _ => cases hl

/-! ## Steps of a thread -/

theorem cancelTask_state (s : Sys) (t : Nat) (mayInterrupt : Bool) :
    ((s.cancelTask t mayInterrupt).tasks t).state ≠ .new := by
  simpa [Sys.cancelTask, Sys.setTask] using FutureState.cancel_ne_new _

theorem rejected_state (s : Sys) (t : Nat) : ((s.rejected t).tasks t).state ≠ .new := by
  simp only [Sys.rejected]
  split <;> exact cancelTask_state _ t false

theorem setTaskOf_self (s : Sys) (th : Nat) : s.setTaskOf th (s.taskOf th) = s := by
  simp [Sys.setTaskOf, Sys.setTask, Sys.taskOf]

theorem live_of_eq {s : Sys} {th : Nat} {pc : Pc} (h : (s.threads th).pc = pc) (hne : pc ≠ .ended) :
    (s.threads th).pc ≠ .ended := h ▸ hne

/-- Threads and tasks are numbered as they are made. -/
def Sys.Numbered (s : Sys) : Prop :=
  ∀ th, (s.threads th).pc ≠ .ended → th < s.nextThread ∧ (s.threads th).task < s.nextTask

namespace Sys.Numbered

theorem soften {s s' : Sys} (hn : s.Numbered) (h : Softens s s') : s'.Numbered := by
  intro th
  rw [h.pc, h.task, h.nextTask, h.nextThread]
  exact hn th

theorem move {s : Sys} (hn : s.Numbered) {th : Nat} (hlive : (s.threads th).pc ≠ .ended) (task : BaseTask)
    {thread : Thread} (htask : thread.task = (s.threads th).task) :
    ((s.setTaskOf th task).setThread th thread).Numbered := by
  intro u hu
  rcases eq_or_ne u th with rfl | hne
  · simpa [Sys.setTaskOf, Sys.setTask, Sys.setThread, htask] using hn u hlive
  · simp only [Sys.setTaskOf, Sys.setTask, Sys.setThread, Function.update_of_ne hne] at hu ⊢
    exact hn u hu

theorem newTask {s : Sys} (hn : s.Numbered) (task : BaseTask) :
    Sys.Numbered { s.setTask s.nextTask task with nextTask := s.nextTask + 1 } :=
  fun th hth => ⟨(hn th hth).1, Nat.lt_succ_of_lt (hn th hth).2⟩

theorem execute {s : Sys} (hn : s.Numbered) {t : Nat} (ht : t < s.nextTask) : (s.execute t).Numbered := by
  intro u hu
  simp only [Sys.execute, Sys.setThread] at hu ⊢
  rcases eq_or_ne u s.nextThread with rfl | hne
  · rw [Function.update_self]
    exact ⟨Nat.lt_succ_self _, ht⟩
  · rw [Function.update_of_ne hne] at hu ⊢
    exact ⟨Nat.lt_succ_of_lt (hn u hu).1, (hn u hu).2⟩

end Sys.Numbered

end LoomScheduler

end Sqlol

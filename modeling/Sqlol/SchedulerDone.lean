/-
What is left behind a terminated executor: a future has an outcome, or a thread
that still runs it.

A one-shot task always gets an outcome from its run. A periodic one gets it from
`cancel`, from a body that throws or from a rejected submission, and its run
returns in two more places: behind a sleep that was cancelled, with the task's
own cancellation under way, and behind a body, when the executor was shut down
meanwhile. There nobody completes the future (`left_pending`).
-/
import Sqlol.Runs
import Sqlol.LoomScheduler

namespace Sqlol

namespace LoomScheduler

/-- `isTerminated`: shut down, and no thread left. -/
def Terminated (s : Sys) : Prop := s.isShutdown = true ∧ ∀ th, (s.threads th).pc = .ended

/-- Behind the executor's end, every future that was returned is done. -/
def AllDone (s : Sys) : Prop := Terminated s → ∀ t < s.nextTask, (s.tasks t).state ≠ .new

/-- A periodic run returns behind its sleep or its body only when the task has an outcome. -/
def Resolved (s : Sys) : Label → Prop
  | .test th =>
    (s.taskOf th).kind ≠ .delayed → (s.threads th).sleeper = .cancelled → (s.taskOf th).state ≠ .new
  | .check th => (s.threads th).pc = .ran true → s.isShutdown = true → (s.taskOf th).state ≠ .new
  | _ => True

instance (s : Sys) : ∀ l, Decidable (Resolved s l)
  | .test th => inferInstanceAs (Decidable ((s.taskOf th).kind ≠ .delayed → (s.threads th).sleeper = .cancelled →
      (s.taskOf th).state ≠ .new))
  | .check th => inferInstanceAs (Decidable ((s.threads th).pc = .ran true → s.isShutdown = true →
      (s.taskOf th).state ≠ .new))
  | .tick _ | .schedule .. | .enter _ | .sleep _ | .wake _ | .interrupted _ | .clear _ | .call _ | .finish ..
  | .advance _ | .resubmit _ | .cancel _ | .cancelSleeper .. | .cancelSuper .. | .shutdown | .shutdownNow =>
    inferInstanceAs (Decidable True)

/-! ## The invariant -/

/-- Behind these places no thread completes its task. -/
def Pc.gaveUp : Pc → Bool
  | .ended | .ran false => true
  | _ => false

/-- A task without an outcome has a thread. -/
structure Attended (s : Sys) : Prop where
  attended : ∀ t < s.nextTask, (s.tasks t).state = .new → ∃ th, (s.threads th).task = t ∧ (s.threads th).pc ≠ .ended
  failed : ∀ th, (s.threads th).pc = .ran false → (s.taskOf th).state ≠ .new
  lt : ∀ th, (s.threads th).pc ≠ .ended → th < s.nextThread ∧ (s.threads th).task < s.nextTask

theorem attended_start : Attended {} where
  attended t h := absurd h (Nat.not_lt_zero t)
  failed th h := by cases h
  lt th h := absurd rfl h

theorem Attended.allDone {s : Sys} (hi : Attended s) : AllDone s := by
  intro hterm t ht hnew
  obtain ⟨th, -, hlive⟩ := hi.attended t ht hnew
  exact hlive (hterm.2 th)

theorem Attended.soften {s s' : Sys} (hi : Attended s) (h : Softens s s') : Attended s' where
  attended t ht hnew := by
    obtain ⟨state, hs, hstate⟩ := h.tasks t
    rw [h.nextTask] at ht
    rw [hs] at hnew
    obtain ⟨th, htask, hlive⟩ := hi.attended t ht (hstate hnew)
    exact ⟨th, by rw [h.task, htask], by rwa [h.pc]⟩
  failed th hpc hnew := by
    obtain ⟨state, hs, hstate⟩ := h.tasks (s.threads th).task
    rw [h.pc] at hpc
    rw [Sys.taskOf, h.task, hs] at hnew
    exact hi.failed th hpc (hstate hnew)
  lt := Sys.Numbered.soften hi.lt h

/-! ## Steps -/

/-- A thread moves; it leaves its task without an outcome only where it goes on. -/
theorem Attended.move {s : Sys} (hi : Attended s) {th : Nat} (hlive : (s.threads th).pc ≠ .ended) {task : BaseTask}
    {thread : Thread} (htask : thread.task = (s.threads th).task)
    (hmono : task.state = .new → (s.taskOf th).state = .new) (hgone : thread.pc.gaveUp = true → task.state ≠ .new) :
    Attended ((s.setTaskOf th task).setThread th thread) where
  attended t ht hnew := by
    rcases eq_or_ne t (s.threads th).task with rfl | hne
    · refine ⟨th, by simpa [Sys.setThread] using htask, fun hended => ?_⟩
      simp only [Sys.setThread, Sys.setTaskOf, Sys.setTask, Function.update_self] at hended hnew
      exact hgone (by rw [hended]; rfl) hnew
    · simp only [Sys.setThread, Sys.setTaskOf, Sys.setTask, Function.update_of_ne hne] at ht hnew ⊢
      obtain ⟨u, hu, hulive⟩ := hi.attended t ht hnew
      have hune : u ≠ th := by
        rintro rfl
        exact hne hu.symm
      exact ⟨u, by rwa [Function.update_of_ne hune], by rwa [Function.update_of_ne hune]⟩
  failed u hpc := by
    rcases eq_or_ne u th with rfl | hne
    · simp only [Sys.taskOf, Sys.setThread, Sys.setTaskOf, Sys.setTask, Function.update_self, htask] at hpc ⊢
      exact hgone (by rw [hpc]; rfl)
    · simp only [Sys.taskOf, Sys.setThread, Sys.setTaskOf, Sys.setTask, Function.update_of_ne hne] at hpc ⊢
      have hold := hi.failed u hpc
      by_cases hsame : (s.threads u).task = (s.threads th).task
      · rw [hsame, Function.update_self]
        rw [Sys.taskOf, hsame] at hold
        exact fun hnew => hold (hmono hnew)
      · rwa [Function.update_of_ne hsame]
  lt := Sys.Numbered.move hi.lt hlive task htask

theorem Attended.moveThread {s : Sys} (hi : Attended s) {th : Nat} (hlive : (s.threads th).pc ≠ .ended)
    {thread : Thread} (htask : thread.task = (s.threads th).task)
    (hgone : thread.pc.gaveUp = true → (s.taskOf th).state ≠ .new) : Attended (s.setThread th thread) := by
  have h := hi.move hlive htask id hgone
  rwa [setTaskOf_self] at h

theorem Attended.goto {s : Sys} (hi : Attended s) {th : Nat} (hlive : (s.threads th).pc ≠ .ended) {pc : Pc}
    (hgone : pc.gaveUp = true → (s.taskOf th).state ≠ .new) : Attended (s.goto th pc) :=
  hi.moveThread hlive rfl hgone

/-- A thread ends with its task submitted again: the new thread has it. -/
theorem Attended.handOver {s : Sys} (hi : Attended s) {th : Nat} (hlive : (s.threads th).pc ≠ .ended) :
    Attended ((s.goto th .ended).execute (s.threads th).task) where
  attended t ht hnew := by
    simp only [Sys.execute, Sys.goto, Sys.setThread] at ht hnew ⊢
    rcases eq_or_ne t (s.threads th).task with rfl | hne
    · exact ⟨s.nextThread, by simp⟩
    · obtain ⟨u, hu, hulive⟩ := hi.attended t ht hnew
      have hfresh : u ≠ s.nextThread := Nat.ne_of_lt (hi.lt u hulive).1
      have hune : u ≠ th := by
        rintro rfl
        exact hne hu.symm
      refine ⟨u, ?_, ?_⟩ <;> rwa [Function.update_of_ne hfresh, Function.update_of_ne hune]
  failed u hpc := by
    simp only [Sys.taskOf, Sys.execute, Sys.goto, Sys.setThread] at hpc ⊢
    rcases eq_or_ne u s.nextThread with rfl | hfresh
    · simp at hpc
    · rw [Function.update_of_ne hfresh] at hpc ⊢
      rcases eq_or_ne u th with rfl | hne
      · simp at hpc
      · rw [Function.update_of_ne hne] at hpc ⊢
        exact hi.failed u hpc
  lt := by
    have hn : (s.goto th .ended).Numbered := by
      have hm : ((s.setTaskOf th (s.taskOf th)).setThread th { s.threads th with pc := .ended }).Numbered :=
        Sys.Numbered.move hi.lt hlive _ rfl
      rwa [setTaskOf_self] at hm
    exact hn.execute (hi.lt th hlive).2

/-- A task without a thread, to be executed at once. -/
theorem Attended.newTask {s : Sys} (hi : Attended s) (task : BaseTask) :
    Attended ({ s.setTask s.nextTask task with nextTask := s.nextTask + 1 }.execute s.nextTask) where
  attended t ht hnew := by
    rcases eq_or_ne t s.nextTask with rfl | hne
    · exact ⟨s.nextThread, by simp [Sys.execute, Sys.setThread, Sys.setTask]⟩
    · simp only [Sys.execute, Sys.setThread, Sys.setTask, Function.update_of_ne hne] at ht hnew ⊢
      obtain ⟨th, htask, hlive⟩ := hi.attended t (by omega) hnew
      have hth : th ≠ s.nextThread := Nat.ne_of_lt (hi.lt th hlive).1
      exact ⟨th, by rwa [Function.update_of_ne hth], by rwa [Function.update_of_ne hth]⟩
  failed th hpc := by
    simp only [Sys.taskOf, Sys.execute, Sys.setThread, Sys.setTask] at hpc ⊢
    rcases eq_or_ne th s.nextThread with rfl | hne
    · simp at hpc
    · rw [Function.update_of_ne hne] at hpc ⊢
      have hother : (s.threads th).task ≠ s.nextTask := Nat.ne_of_lt (hi.lt th (by rw [hpc]; simp)).2
      rw [Function.update_of_ne hother]
      exact hi.failed th hpc
  lt := (Sys.Numbered.newTask hi.lt task).execute (Nat.lt_succ_self _)

theorem Attended.test {s s' : Sys} {th : Nat} (hi : Attended s) (hr : Resolved s (.test th))
    (h : step s (.test th) = some s') : Attended s' := by
  have hperiodic : (s.threads th).pc = .cleared → (s.taskOf th).kind ≠ .delayed →
      Attended (s.goto th (if (s.taskOf th).state = .cancelled ∨ (s.threads th).sleeper = .cancelled then .ended
        else .ready)) := by
    intro hpc hk
    refine hi.goto (live_of_eq hpc (by simp)) ?_
    split
    · rename_i hc
      intro _
      rcases hc with hc | hc
      · rw [hc]; simp
      · exact hr hk hc
    · intro hgone
      cases hgone
  simp only [step] at h
  split at h <;> cases h
  · rename_i hk hpc
    have hready : Pc.ready.gaveUp = true → ∀ x : FutureState, x ≠ .new := fun hgone => by cases hgone
    split
    · have hsoft := Softens.cancelTask s (s.threads th).task false
      exact (hi.soften hsoft).goto (by rw [hsoft.pc, hpc]; simp) fun hgone => hready hgone _
    · exact hi.goto (live_of_eq hpc (by simp)) fun hgone => hready hgone _
  · rename_i hk hpc
    exact hperiodic hpc (by rw [hk]; simp)
  · rename_i hk hpc
    exact hperiodic hpc (by rw [hk]; simp)

theorem Attended.finish {s s' : Sys} {th : Nat} {throws : Bool} (hi : Attended s)
    (h : step s (.finish th throws) = some s') : Attended s' := by
  have hmono : ∀ outcome : FutureState, outcome ≠ .new → (s.taskOf th).state.complete outcome = .new →
      (s.taskOf th).state = .new := fun _ ho hnew => absurd hnew (FutureState.complete_ne_new ho)
  simp only [step] at h
  split at h
  · rename_i hpc
    have hlive := live_of_eq hpc (by simp)
    split at h
    · cases h
      have ho : (if throws then FutureState.exceptional else .normal) ≠ .new := by split <;> simp
      exact hi.move hlive rfl (hmono _ ho) fun _ => FutureState.complete_ne_new ho
    · split at h <;> cases h
      · exact hi.move hlive rfl (hmono _ (by simp)) fun _ => FutureState.complete_ne_new (by simp)
      · refine hi.move hlive rfl id fun hgone hnew => ?_
        simp only at hnew
        simp [Pc.gaveUp, hnew] at hgone
  · cases h

theorem Attended.check {s s' : Sys} {th : Nat} (hi : Attended s) (hr : Resolved s (.check th))
    (h : step s (.check th) = some s') : Attended s' := by
  simp only [step] at h
  split at h
  · rename_i executed hpc
    cases h
    refine hi.goto (live_of_eq hpc (by simp)) ?_
    split
    · rename_i hc
      intro _ hnew
      cases executed with
      | false => exact hi.failed th hpc hnew
      | true =>
        rcases hc with hc | hc | hc
        · simp at hc
        · rw [hc] at hnew; cases hnew
        · exact hr hpc hc hnew
    · intro hgone
      cases hgone
  · cases h

theorem Attended.step {s s' : Sys} {l : Label} (hi : Attended s) (hr : Resolved s l) (h : step s l = some s') :
    Attended s' := by
  cases l with
  | schedule kind delay =>
    simp only [LoomScheduler.step] at h
    split at h <;> cases h
    · exact hi.newTask _
    · exact hi
  | enter th =>
    simp only [LoomScheduler.step] at h
    split at h
    · cases h
    · rename_i hpc _
      have hlive := live_of_eq hpc (by simp)
      cases h
      split
      · rename_i hc
        exact hi.goto hlive fun _ => by rw [hc]; simp
      · exact hi.move hlive rfl id fun hgone => by cases hgone
    · cases h
  | sleep th =>
    have hmove : (s.threads th).pc ≠ .ended →
        Attended (if (s.threads th).sleeper = .new then
            s.goto th (.sleeping (s.now + max ((s.taskOf th).nextMark - s.now) 0))
          else s.goto th .slept) := by
      intro hlive
      split <;> exact hi.goto hlive fun hgone => by cases hgone
    simp only [LoomScheduler.step] at h
    split at h <;> cases h <;> exact hmove (live_of_eq ‹_› (by simp))
  | wake th =>
    simp only [LoomScheduler.step] at h
    split at h
    · rename_i hpc
      split at h <;> cases h
      exact hi.moveThread (live_of_eq hpc (by simp)) rfl fun hgone => by cases hgone
    · cases h
  | interrupted th =>
    simp only [LoomScheduler.step] at h
    split at h
    · rename_i hpc
      split at h <;> cases h
      exact hi.moveThread (live_of_eq hpc (by simp)) rfl fun hgone => by cases hgone
    · cases h
  | clear th =>
    simp only [LoomScheduler.step] at h
    split at h
    · cases h
    · rename_i hpc _
      cases h
      exact hi.move (live_of_eq hpc (by simp)) rfl id fun hgone => by cases hgone
    · cases h
  | test th => exact hi.test hr h
  | call th =>
    simp only [LoomScheduler.step] at h
    split at h
    · rename_i hpc
      have hlive := live_of_eq hpc (by simp)
      cases h
      split
      · exact hi.move hlive rfl id fun hgone => by cases hgone
      · rename_i hdone
        exact hi.goto hlive fun _ => hdone
    · cases h
  | finish th throws => exact hi.finish h
  | check th => exact hi.check hr h
  | advance th =>
    simp only [LoomScheduler.step] at h
    split at h <;> cases h <;>
      exact hi.move (live_of_eq ‹_› (by simp)) rfl id fun hgone => by cases hgone
  | resubmit th =>
    simp only [LoomScheduler.step] at h
    split at h
    · rename_i hpc
      have hlive := live_of_eq hpc (by simp)
      cases h
      split
      · have hsoft := Softens.rejected s (s.threads th).task
        refine (hi.soften hsoft).goto (by rw [hsoft.pc]; exact hlive) fun _ => ?_
        rw [Sys.taskOf, hsoft.task]
        exact rejected_state s _
      · exact hi.handOver hlive
    · cases h
  | tick d => exact hi.soften (.step rfl h)
  | cancel t => exact hi.soften (.step rfl h)
  | cancelSleeper t th => exact hi.soften (.step rfl h)
  | cancelSuper t mayInterrupt => exact hi.soften (.step rfl h)
  | shutdown => exact hi.soften (.step rfl h)
  | shutdownNow => exact hi.soften (.step rfl h)

/-- **Behind a terminated executor every future is done**, over every
interleaving in which no periodic run returns half-way from a task without an outcome. -/
theorem terminated_run_done (labels : List Label) (h : EveryStep step Resolved {} labels) :
    EveryState step AllDone {} labels :=
  everyState_of_invariant (fun _ _ _ hi hr hs => hi.step hr hs) (fun _ hi => hi.allDone) attended_start h

/-- A fixed-delay task is about to be submitted again and a one-shot one is asleep when the executor is shut down. -/
def shutDown : List Label :=
  [.schedule (.fixedDelay 10) 0, .schedule .delayed 5, .enter 0, .sleep 0, .sleep 1, .wake 0, .clear 0, .test 0,
    .call 0, .finish 0 false, .check 0, .shutdown, .advance 0, .resubmit 0, .tick 5, .wake 1, .test 1, .call 1,
    .finish 1 true]

theorem terminated_run_done_shut_down :
    (run step {} shutDown).map (fun s => (s.isShutdown, (s.threads 0).pc, (s.threads 1).pc, (s.tasks 0).state,
      (s.tasks 1).state)) = some (true, .ended, .ended, .cancelled, .exceptional) ∧
    EveryState step AllDone {} shutDown :=
  ⟨by decide +kernel, terminated_run_done shutDown (by decide +kernel)⟩

/-- A fixed-rate task whose body is running at the shutdown: its run returns, and nobody completes the future. -/
theorem left_pending :
    ¬ EveryState step AllDone {}
      [.schedule (.fixedRate 10) 0, .enter 0, .sleep 0, .wake 0, .clear 0, .test 0, .call 0, .shutdown,
        .finish 0 false, .check 0] := by
  intro hall
  refine hall.last rfl ⟨rfl, fun th => ?_⟩ 0 (by decide) rfl
  cases th <;> rfl

end LoomScheduler

end Sqlol

/-
When the bodies of scheduled tasks start: never before their mark, and never
beside another run of the same task.

A thread comes to the body behind its sleep, so all rests on how the sleep
ended. Normally, its time is past; cancelled, the body is not run. Interrupted,
as `shutdownNow` does it to every thread, the sleep ends with an exception that
nobody looks at, and the body runs at once (`early_start`). Where no other sleep
than a cancelled one is interrupted, nothing starts early
(`schedule_run_on_time`).
-/
import Sqlol.Runs
import Sqlol.LoomScheduler
import Mathlib.Tactic.Linarith

namespace Sqlol

namespace LoomScheduler

/-! ## What is claimed -/

/-- The starts of a task's runs against its marks. -/
def BaseTask.OnTime (task : BaseTask) : Prop :=
  match task.kind with
  | .delayed => ∀ x ∈ task.starts, task.mark ≤ x
  | .fixedRate period => ∀ (k : Nat) x, task.starts[k]? = some x → task.mark + k * period ≤ x
  | .fixedDelay period => ∀ (k : Nat) e x, task.stops[k]? = some e → task.starts[k + 1]? = some x → e + period ≤ x

/-- Nothing starts early, and of no task are two runs under way. -/
structure Punctual (s : Sys) : Prop where
  onTime : ∀ t, (s.tasks t).OnTime
  alone : ∀ t, (s.tasks t).starts.length ≤ (s.tasks t).stops.length + 1

/-- Only a sleep that was cancelled is interrupted. -/
def Uninterrupted (s : Sys) : Label → Prop
  | .interrupted th => (s.threads th).sleeper = .cancelled
  | _ => True

instance (s : Sys) : ∀ l, Decidable (Uninterrupted s l)
  | .interrupted th => inferInstanceAs (Decidable ((s.threads th).sleeper = .cancelled))
  | .tick _ | .schedule .. | .enter _ | .sleep _ | .wake _ | .clear _ | .test _ | .call _ | .finish .. | .check _
  | .advance _ | .resubmit _ | .cancel _ | .cancelSleeper .. | .cancelSuper .. | .shutdown | .shutdownNow =>
    inferInstanceAs (Decidable True)

/-! ## The next start -/

/-- The earliest time for the next start. -/
def BaseTask.earliest (task : BaseTask) : Int :=
  match task.kind with
  | .delayed => task.mark
  | .fixedRate period => task.mark + task.starts.length * period
  | .fixedDelay period => match task.stops.getLast? with
    | none => task.mark
    | some e => e + period

theorem BaseTask.OnTime.start {task : BaseTask} (h : task.OnTime) (hlen : task.starts.length = task.stops.length)
    {x : Int} (hx : task.earliest ≤ x) : BaseTask.OnTime { task with starts := task.starts ++ [x] } := by
  simp only [BaseTask.OnTime, BaseTask.earliest] at h hx ⊢
  cases hk : task.kind with
  | delayed =>
    simp only [hk] at h hx ⊢
    intro y hy
    rcases List.mem_append.mp hy with hy | hy
    · exact h y hy
    · rw [List.mem_singleton.mp hy]; exact hx
  | fixedRate period =>
    simp only [hk] at h hx ⊢
    intro k y hy
    rcases Nat.lt_or_ge k task.starts.length with hlt | hge
    · rw [List.getElem?_append_left hlt] at hy; exact h k y hy
    · rw [List.getElem?_append_right hge, List.getElem?_singleton] at hy
      split at hy <;> cases hy
      rwa [show k = task.starts.length by omega]
  | fixedDelay period =>
    simp only [hk] at h hx ⊢
    intro k e y he hy
    rcases Nat.lt_or_ge (k + 1) task.starts.length with hlt | hge
    · rw [List.getElem?_append_left hlt] at hy; exact h k e y he hy
    · rw [List.getElem?_append_right hge, List.getElem?_singleton] at hy
      split at hy <;> cases hy
      have hlast : task.stops.getLast? = some e := by
        rw [List.getLast?_eq_getElem?, ← he]
        congr 1
        omega
      rwa [hlast] at hx

theorem BaseTask.OnTime.stop {task : BaseTask} (h : task.OnTime) (hlen : task.starts.length = task.stops.length + 1)
    (x : Int) : BaseTask.OnTime { task with stops := task.stops ++ [x] } := by
  simp only [BaseTask.OnTime] at h ⊢
  cases hk : task.kind with
  | delayed => simpa only [hk] using h
  | fixedRate period => simpa only [hk] using h
  | fixedDelay period =>
    simp only [hk] at h ⊢
    intro k e y he hy
    rcases Nat.lt_or_ge k task.stops.length with hlt | hge
    · rw [List.getElem?_append_left hlt] at he; exact h k e y he hy
    · rw [List.getElem?_eq_none (by omega)] at hy
      cases hy

/-! ## The invariant -/

/-- What a thread behind the body knows of the next start. -/
def BaseTask.Follows (now : Int) (task : BaseTask) : Prop :=
  match task.kind with
  | .delayed => True
  | .fixedRate period => task.earliest ≤ task.nextMark + period
  | .fixedDelay period => task.earliest ≤ now + period

/-- What holds of a task at the places of its thread. -/
def Fits (now : Int) (task : BaseTask) (thread : Thread) : Prop :=
  match thread.pc with
  | .started | .prepared =>
    task.starts.length = task.stops.length ∧ task.earliest ≤ task.nextMark ∧
      (thread.sleeper = .new ∨ thread.sleeper = .cancelled)
  | .sleeping wake =>
    task.starts.length = task.stops.length ∧ task.earliest ≤ task.nextMark ∧ task.nextMark ≤ wake
  | .slept | .cleared =>
    task.starts.length = task.stops.length ∧ task.earliest ≤ task.nextMark ∧
      (thread.sleeper ≠ .cancelled → task.nextMark ≤ now)
  | .ready =>
    task.starts.length = task.stops.length ∧ task.earliest ≤ task.nextMark ∧
      (task.state = .new → task.nextMark ≤ now)
  | .inBody =>
    task.starts.length = task.stops.length + 1 ∧
      ∀ period, task.kind = .fixedRate period → task.earliest ≤ task.nextMark + period
  | .ran executed => task.starts.length = task.stops.length ∧ (executed = true → task.Follows now)
  | .continuing => task.starts.length = task.stops.length ∧ task.Follows now
  | .rescheduling => task.starts.length = task.stops.length ∧ task.earliest ≤ task.nextMark
  | .ended => True

/-- A task has one thread that has not ended, at the most. -/
structure Inv (s : Sys) : Prop where
  punctual : Punctual s
  fits : ∀ th, Fits s.now (s.taskOf th) (s.threads th)
  single : ∀ a b, (s.threads a).pc ≠ .ended → (s.threads b).pc ≠ .ended →
    (s.threads a).task = (s.threads b).task → a = b
  lt : ∀ th, (s.threads th).pc ≠ .ended → th < s.nextThread ∧ (s.threads th).task < s.nextTask

theorem inv_start : Inv {} where
  punctual := ⟨fun _ => by simp [BaseTask.OnTime], fun _ => Nat.zero_le _⟩
  fits _ := trivial
  single _ _ h := absurd rfl h
  lt _ h := absurd rfl h

/-! ## Steps that move no thread -/

theorem BaseTask.Follows.mono {now now' : Int} {task : BaseTask} (h : task.Follows now) (hle : now ≤ now') :
    task.Follows now' := by
  simp only [BaseTask.Follows] at h ⊢
  split <;> simp_all
  omega

theorem Fits.soften {now now' : Int} {task : BaseTask} {thread thread' : Thread} {state : FutureState}
    (h : Fits now task thread) (hnow : now ≤ now') (hstate : state = .new → task.state = .new)
    (hpc : thread'.pc = thread.pc) (hsleeper : thread'.sleeper = thread.sleeper ∨ thread'.sleeper = .cancelled) :
    Fits now' { task with state } thread' := by
  simp only [Fits] at h ⊢
  rw [hpc]
  cases hp : thread.pc <;> simp only [hp] at h ⊢
  case started | prepared =>
    refine ⟨h.1, h.2.1, ?_⟩
    rcases hsleeper with hsl | hsl
    · rw [hsl]; exact h.2.2
    · exact .inr hsl
  case sleeping => exact h
  case slept | cleared =>
    refine ⟨h.1, h.2.1, fun hne => ?_⟩
    rcases hsleeper with hsl | hsl
    · exact le_trans (h.2.2 (hsl ▸ hne)) hnow
    · exact absurd hsl hne
  case ready => exact ⟨h.1, h.2.1, fun hnew => le_trans (h.2.2 (hstate hnew)) hnow⟩
  case inBody => exact h
  case ran => exact ⟨h.1, fun he => (h.2 he).mono hnow⟩
  case continuing => exact ⟨h.1, h.2.mono hnow⟩
  case rescheduling => exact h

theorem Inv.soften {s s' : Sys} (hi : Inv s) (h : Softens s s') : Inv s' where
  punctual := by
    constructor <;> intro t <;> obtain ⟨state, ht, -⟩ := h.tasks t <;> rw [ht]
    · exact hi.punctual.onTime t
    · exact hi.punctual.alone t
  fits th := by
    obtain ⟨state, ht, hstate⟩ := h.tasks (s.threads th).task
    rw [Sys.taskOf, h.task th, ht]
    exact (hi.fits th).soften h.now hstate (h.pc th) (h.sleeper th)
  single a b := by
    rw [h.pc, h.pc, h.task, h.task]
    exact hi.single a b
  lt := Sys.Numbered.soften hi.lt h

/-! ## Steps of a thread -/

/-- A thread that has not ended changes itself and its task. -/
theorem Inv.move {s : Sys} (hi : Inv s) {th : Nat} (hlive : (s.threads th).pc ≠ .ended) {task : BaseTask}
    {thread : Thread} (htask : thread.task = (s.threads th).task) (honTime : task.OnTime)
    (halone : task.starts.length ≤ task.stops.length + 1) (hfits : Fits s.now task thread) :
    Inv ((s.setTaskOf th task).setThread th thread) where
  punctual := by
    constructor <;> intro t <;> rcases eq_or_ne t (s.threads th).task with rfl | hne
    · simpa [Sys.setTaskOf, Sys.setTask, Sys.setThread] using honTime
    · simpa [Sys.setTaskOf, Sys.setTask, Sys.setThread, hne] using hi.punctual.onTime t
    · simpa [Sys.setTaskOf, Sys.setTask, Sys.setThread] using halone
    · simpa [Sys.setTaskOf, Sys.setTask, Sys.setThread, hne] using hi.punctual.alone t
  fits u := by
    rcases eq_or_ne u th with rfl | hne
    · simpa [Sys.taskOf, Sys.setTaskOf, Sys.setTask, Sys.setThread, htask] using hfits
    · by_cases hended : (s.threads u).pc = .ended
      · simp [Fits, Sys.setTaskOf, Sys.setTask, Sys.setThread, hne, hended]
      · have hother : (s.threads u).task ≠ (s.threads th).task := fun he => hne (hi.single u th hended hlive he)
        simpa [Sys.taskOf, Sys.setTaskOf, Sys.setTask, Sys.setThread, hne, hother] using hi.fits u
  single a b := by
    have hsame : ∀ u, (((s.setTaskOf th task).setThread th thread).threads u).task = (s.threads u).task := by
      intro u
      rcases eq_or_ne u th with rfl | hne
      · simpa [Sys.setThread] using htask
      · simp [Sys.setTaskOf, Sys.setTask, Sys.setThread, hne]
    have hlive' : ∀ u, (((s.setTaskOf th task).setThread th thread).threads u).pc ≠ .ended →
        (s.threads u).pc ≠ .ended := by
      intro u hu
      rcases eq_or_ne u th with rfl | hne
      · exact hlive
      · simpa [Sys.setTaskOf, Sys.setTask, Sys.setThread, hne] using hu
    intro ha hb
    rw [hsame, hsame]
    exact hi.single a b (hlive' a ha) (hlive' b hb)
  lt := Sys.Numbered.move hi.lt hlive task htask

/-- The move of a thread that leaves its task as it is. -/
theorem Inv.moveThread {s : Sys} (hi : Inv s) {th : Nat} (hlive : (s.threads th).pc ≠ .ended) {thread : Thread}
    (htask : thread.task = (s.threads th).task) (hfits : Fits s.now (s.taskOf th) thread) :
    Inv (s.setThread th thread) := by
  have h : Inv ((s.setTaskOf th (s.taskOf th)).setThread th thread) :=
    hi.move hlive htask (hi.punctual.onTime _) (hi.punctual.alone _) hfits
  rwa [setTaskOf_self] at h

theorem Inv.goto {s : Sys} (hi : Inv s) {th : Nat} (hlive : (s.threads th).pc ≠ .ended) {pc : Pc}
    (hfits : Fits s.now (s.taskOf th) { s.threads th with pc }) : Inv (s.goto th pc) :=
  hi.moveThread hlive rfl hfits

/-- The move of a thread that leaves the starts and the stops of its task. -/
theorem Inv.setTaskOf {s : Sys} (hi : Inv s) {th : Nat} (hlive : (s.threads th).pc ≠ .ended) {task : BaseTask}
    (hkind : task.kind = (s.taskOf th).kind) (hmark : task.mark = (s.taskOf th).mark)
    (hstarts : task.starts = (s.taskOf th).starts) (hstops : task.stops = (s.taskOf th).stops) {pc : Pc}
    (hfits : Fits s.now task { s.threads th with pc }) : Inv ((s.setTaskOf th task).goto th pc) := by
  have honTime : task.OnTime := by
    have h := hi.punctual.onTime (s.threads th).task
    simp only [BaseTask.OnTime, Sys.taskOf] at h hkind hmark hstarts hstops ⊢
    rwa [hkind, hmark, hstarts, hstops]
  have halone : task.starts.length ≤ task.stops.length + 1 := by
    rw [hstarts, hstops]
    exact hi.punctual.alone _
  exact hi.move hlive rfl honTime halone hfits

/-- A thread is made for a task that has none. -/
theorem Inv.execute {s : Sys} (hi : Inv s) {t : Nat}
    (hnone : ∀ th, (s.threads th).pc ≠ .ended → (s.threads th).task ≠ t) (hlt : t < s.nextTask)
    (hfits : Fits s.now (s.tasks t) { task := t }) : Inv (s.execute t) where
  punctual := ⟨hi.punctual.onTime, hi.punctual.alone⟩
  fits u := by
    rcases eq_or_ne u s.nextThread with rfl | hne
    · simpa [Sys.taskOf, Sys.execute, Sys.setThread] using hfits
    · simpa [Sys.taskOf, Sys.execute, Sys.setThread, hne] using hi.fits u
  single a b := by
    simp only [Sys.execute, Sys.setThread]
    intro ha hb hab
    rcases eq_or_ne a s.nextThread with rfl | hane <;> rcases eq_or_ne b s.nextThread with rfl | hbne
    · rfl
    · rw [Function.update_of_ne hbne] at hb hab
      rw [Function.update_self] at hab
      exact absurd hab.symm (hnone b hb)
    · rw [Function.update_of_ne hane] at ha hab
      rw [Function.update_self] at hab
      exact absurd hab (hnone a ha)
    · rw [Function.update_of_ne hane] at ha hab
      rw [Function.update_of_ne hbne] at hb hab
      exact hi.single a b ha hb hab
  lt := Sys.Numbered.execute hi.lt hlt

/-- A task is made. -/
theorem Inv.newTask {s : Sys} (hi : Inv s) (task : BaseTask) (hstarts : task.starts = []) (hstops : task.stops = []) :
    Inv { s.setTask s.nextTask task with nextTask := s.nextTask + 1 } where
  punctual := by
    constructor <;> intro t <;> rcases eq_or_ne t s.nextTask with rfl | hne
    · simp [Sys.setTask, BaseTask.OnTime, hstarts, hstops]
      split <;> trivial
    · simpa [Sys.setTask, hne] using hi.punctual.onTime t
    · simp [Sys.setTask, hstarts]
    · simpa [Sys.setTask, hne] using hi.punctual.alone t
  fits th := by
    by_cases hended : (s.threads th).pc = .ended
    · simp [Fits, Sys.setTask, hended]
    · have hne : (s.threads th).task ≠ s.nextTask := (hi.lt th hended).2.ne
      simpa [Sys.taskOf, Sys.setTask, hne] using hi.fits th
  single := hi.single
  lt := Sys.Numbered.newTask hi.lt task

theorem Inv.schedule {s s' : Sys} {kind : Kind} {delay : Int} (hi : Inv s)
    (h : step s (.schedule kind delay) = some s') : Inv s' := by
  simp only [step] at h
  split at h <;> cases h
  · refine (hi.newTask ⟨kind, _, _, .new, _, [], []⟩ rfl rfl).execute ?_ (Nat.lt_succ_self _) ?_
    · intro th hth
      exact (hi.lt th hth).2.ne
    · simp only [Fits, Sys.setTask, Function.update_self, BaseTask.earliest, true_or, and_true, true_and]
      cases kind <;> simp
  · exact hi

theorem Inv.enter {s s' : Sys} {th : Nat} (hi : Inv s) (h : step s (.enter th) = some s') : Inv s' := by
  simp only [step] at h
  split at h
  · cases h
  · rename_i hpc _
    have hf := hi.fits th
    simp only [Fits, hpc] at hf
    cases h
    split
    · exact hi.goto (live_of_eq hpc (by simp)) trivial
    · exact hi.setTaskOf (live_of_eq hpc (by simp)) (by rfl) (by rfl) (by rfl) (by rfl) hf
  · cases h

theorem Inv.sleep {s s' : Sys} {th : Nat} (hi : Inv s) (h : step s (.sleep th) = some s') : Inv s' := by
  have hmove : (s.threads th).pc = .started ∨ (s.threads th).pc = .prepared →
      Inv (if (s.threads th).sleeper = .new then
          s.goto th (.sleeping (s.now + max ((s.taskOf th).nextMark - s.now) 0))
        else s.goto th .slept) := by
    intro hpc
    have hf : (s.taskOf th).starts.length = (s.taskOf th).stops.length ∧
        (s.taskOf th).earliest ≤ (s.taskOf th).nextMark ∧
        ((s.threads th).sleeper = .new ∨ (s.threads th).sleeper = .cancelled) := by
      have hf := hi.fits th
      rcases hpc with hpc | hpc <;> simpa only [Fits, hpc] using hf
    have hlive : (s.threads th).pc ≠ .ended := by rcases hpc with hpc | hpc <;> simp [hpc]
    split
    · refine hi.goto hlive ⟨hf.1, hf.2.1, ?_⟩
      omega
    · rename_i hne
      exact hi.goto hlive ⟨hf.1, hf.2.1, fun hnc => absurd (hf.2.2.resolve_left hne) hnc⟩
  simp only [step] at h
  split at h <;> cases h
  · exact hmove (.inl ‹_›)
  · exact hmove (.inr ‹_›)
  · exact hmove (.inr ‹_›)

theorem Inv.wake {s s' : Sys} {th : Nat} (hi : Inv s) (h : step s (.wake th) = some s') : Inv s' := by
  simp only [step] at h
  split at h
  · rename_i wake hpc
    have hf := hi.fits th
    simp only [Fits, hpc] at hf
    split at h <;> cases h
    rename_i hle
    refine hi.moveThread (live_of_eq hpc (by simp)) rfl ?_
    exact ⟨hf.1, hf.2.1, fun _ => le_trans hf.2.2 hle⟩
  · cases h

/-- The sleep was cancelled, so its outcome stays that. -/
theorem Inv.interrupted {s s' : Sys} {th : Nat} (hi : Inv s) (hc : (s.threads th).sleeper = .cancelled)
    (h : step s (.interrupted th) = some s') : Inv s' := by
  simp only [step] at h
  split at h
  · rename_i wake hpc
    have hf := hi.fits th
    simp only [Fits, hpc] at hf
    split at h <;> cases h
    refine hi.moveThread (live_of_eq hpc (by simp)) rfl ?_
    exact ⟨hf.1, hf.2.1, fun hne => absurd (by simp only [hc, FutureState.complete]) hne⟩
  · cases h

theorem Inv.clear {s s' : Sys} {th : Nat} (hi : Inv s) (h : step s (.clear th) = some s') : Inv s' := by
  simp only [step] at h
  split at h
  · cases h
  · rename_i hpc _
    have hf := hi.fits th
    simp only [Fits, hpc] at hf
    cases h
    exact hi.setTaskOf (live_of_eq hpc (by simp)) (by rfl) (by rfl) (by rfl) (by rfl) hf
  · cases h

theorem Inv.test {s s' : Sys} {th : Nat} (hi : Inv s) (h : step s (.test th) = some s') : Inv s' := by
  -- The two periodic classes go on alike.
  have hperiodic : (s.threads th).pc = .cleared →
      Inv (s.goto th (if (s.taskOf th).state = .cancelled ∨ (s.threads th).sleeper = .cancelled then .ended
        else .ready)) := by
    intro hpc
    have hf := hi.fits th
    simp only [Fits, hpc] at hf
    refine hi.goto (live_of_eq hpc (by simp)) ?_
    split
    · trivial
    · rename_i hne
      exact ⟨hf.1, hf.2.1, fun _ => hf.2.2 fun hc => hne (.inr hc)⟩
  simp only [step] at h
  split at h <;> cases h
  · rename_i hpc
    have hf := hi.fits th
    simp only [Fits, hpc] at hf
    split
    · have hsoft := Softens.cancelTask s (s.threads th).task false
      have hi' := hi.soften hsoft
      have hpc' : ((s.cancelTask (s.threads th).task false).threads th).pc = .slept := by rw [hsoft.pc, hpc]
      have hf' := hi'.fits th
      simp only [Fits, hpc'] at hf'
      refine hi'.goto (live_of_eq hpc' (by simp)) ⟨hf'.1, hf'.2.1, fun hnew => ?_⟩
      rw [Sys.taskOf, hsoft.task] at hnew
      exact absurd hnew (cancelTask_state s _ false)
    · rename_i hne
      exact hi.goto (live_of_eq hpc (by simp)) ⟨hf.1, hf.2.1, fun _ => hf.2.2 hne⟩
  · exact hperiodic ‹_›
  · exact hperiodic ‹_›

theorem Inv.call {s s' : Sys} {th : Nat} (hi : Inv s) (h : step s (.call th) = some s') : Inv s' := by
  simp only [step] at h
  split at h
  · rename_i hpc
    have hf := hi.fits th
    simp only [Fits, hpc] at hf
    have hlive := live_of_eq hpc (by simp)
    cases h
    split
    · rename_i hnew
      have hle : (s.taskOf th).earliest ≤ s.now := le_trans hf.2.1 (hf.2.2 hnew)
      refine hi.move hlive rfl ((hi.punctual.onTime _).start hf.1 hle) ?_ ?_
      · simp [hf.1]
      · simp only [Fits]
        refine ⟨by simp [hf.1], fun period hk => ?_⟩
        have hearliest := hf.2.1
        simp only [BaseTask.earliest] at hk hearliest ⊢
        rw [hk] at hearliest ⊢
        simp only [List.length_append, List.length_cons, List.length_nil] at hearliest ⊢
        push_cast
        linarith
    · split
      · exact hi.goto hlive trivial
      · exact hi.goto hlive ⟨hf.1, fun he => by cases he⟩
  · cases h

theorem Inv.check {s s' : Sys} {th : Nat} (hi : Inv s) (h : step s (.check th) = some s') : Inv s' := by
  simp only [step] at h
  split at h
  · rename_i executed hpc
    have hf := hi.fits th
    simp only [Fits, hpc] at hf
    cases h
    refine hi.goto (live_of_eq hpc (by simp)) ?_
    split
    · trivial
    · rename_i hne
      exact ⟨hf.1, hf.2 (by cases executed <;> simp_all)⟩
  · cases h

theorem Inv.advance {s s' : Sys} {th : Nat} (hi : Inv s) (h : step s (.advance th) = some s') : Inv s' := by
  simp only [step] at h
  split at h <;> cases h
  · rename_i period hk hpc
    have hf := hi.fits th
    simp only [Fits, hpc, BaseTask.Follows, hk] at hf
    refine hi.setTaskOf (live_of_eq hpc (by simp)) (by rfl) (by rfl) (by rfl) (by rfl) ⟨hf.1, ?_⟩
    simpa only [BaseTask.earliest, hk] using hf.2
  · rename_i period hk hpc
    have hf := hi.fits th
    simp only [Fits, hpc, BaseTask.Follows, hk] at hf
    refine hi.setTaskOf (live_of_eq hpc (by simp)) (by rfl) (by rfl) (by rfl) (by rfl) ⟨hf.1, ?_⟩
    have hle := hf.2
    simp only [BaseTask.earliest, hk] at hle ⊢
    rw [show (s.taskOf th).mark + (s.now - (s.taskOf th).mark) = s.now by omega]
    exact hle

/-- The end of the body, for any outcome and place behind it that fit. -/
theorem Inv.stop {s : Sys} (hi : Inv s) {th : Nat} (hpc : (s.threads th).pc = .inBody) (state : FutureState) {pc : Pc}
    (hbehind : pc = .ended ∨ ∃ executed, pc = .ran executed) :
    Inv ((s.setTaskOf th { s.taskOf th with stops := (s.taskOf th).stops ++ [s.now], state }).goto th pc) := by
  have hf := hi.fits th
  simp only [Fits, hpc] at hf
  refine hi.move (live_of_eq hpc (by simp)) rfl ((hi.punctual.onTime _).stop hf.1 s.now) ?_ ?_
  · rw [hf.1]
    simp
  · rcases hbehind with rfl | ⟨executed, rfl⟩
    · trivial
    · refine ⟨by simp [hf.1], fun _ => ?_⟩
      simp only [BaseTask.Follows]
      cases hk : (s.taskOf th).kind with
      | delayed => trivial
      | fixedRate period => simpa only [BaseTask.earliest, hk] using hf.2 period hk
      | fixedDelay period => simp [BaseTask.earliest]

theorem Inv.finish {s s' : Sys} {th : Nat} {throws : Bool} (hi : Inv s) (h : step s (.finish th throws) = some s') :
    Inv s' := by
  simp only [step] at h
  split at h
  · rename_i hpc
    split at h
    · cases h
      exact hi.stop hpc _ (.inl rfl)
    · split at h <;> cases h
      · exact hi.stop hpc _ (.inr ⟨_, rfl⟩)
      · exact hi.stop hpc (s.taskOf th).state (.inr ⟨_, rfl⟩)
  · cases h

theorem Inv.resubmit {s s' : Sys} {th : Nat} (hi : Inv s) (h : step s (.resubmit th) = some s') : Inv s' := by
  simp only [step] at h
  split at h
  · rename_i hpc
    have hlive := live_of_eq hpc (by simp)
    cases h
    split
    · have hsoft := Softens.rejected s (s.threads th).task
      exact (hi.soften hsoft).goto (by rw [hsoft.pc]; exact hlive) trivial
    · have hf := hi.fits th
      simp only [Fits, hpc] at hf
      have hended : Inv (s.goto th .ended) := hi.goto hlive trivial
      refine hended.execute ?_ (hi.lt th hlive).2 ?_
      · intro u hu
        rcases eq_or_ne u th with rfl | hne
        · simp [Sys.goto, Sys.setThread] at hu
        · simp only [Sys.goto, Sys.setThread, Function.update_of_ne hne] at hu ⊢
          exact fun he => hne (hi.single u th hu hlive he)
      · exact ⟨hf.1, hf.2, .inl rfl⟩
  · cases h

/-! ## The run -/

theorem Inv.step {s s' : Sys} {l : Label} (hi : Inv s) (hu : Uninterrupted s l) (h : step s l = some s') : Inv s' := by
  cases l with
  | schedule kind delay => exact hi.schedule h
  | enter th => exact hi.enter h
  | sleep th => exact hi.sleep h
  | wake th => exact hi.wake h
  | interrupted th => exact hi.interrupted hu h
  | clear th => exact hi.clear h
  | test th => exact hi.test h
  | call th => exact hi.call h
  | finish th throws => exact hi.finish h
  | check th => exact hi.check h
  | advance th => exact hi.advance h
  | resubmit th => exact hi.resubmit h
  | tick d => exact hi.soften (.step rfl h)
  | cancel t => exact hi.soften (.step rfl h)
  | cancelSleeper t th => exact hi.soften (.step rfl h)
  | cancelSuper t mayInterrupt => exact hi.soften (.step rfl h)
  | shutdown => exact hi.soften (.step rfl h)
  | shutdownNow => exact hi.soften (.step rfl h)

/-- **No body starts before its time and no task runs beside itself**, over every
interleaving in which no sleep is interrupted that was not cancelled. -/
theorem schedule_run_on_time (labels : List Label) (h : EveryStep step Uninterrupted {} labels) :
    EveryState step Punctual {} labels :=
  everyState_of_invariant (fun _ _ _ hi hu hs => hi.step hu hs) (fun _ hi => hi.punctual) inv_start h

/-- A fixed-rate task runs once and is cancelled in its second sleep. -/
def undisturbed : List Label :=
  [.schedule (.fixedRate 10) 5, .enter 0, .sleep 0, .tick 5, .wake 0, .clear 0, .test 0, .call 0, .tick 12,
    .finish 0 false, .check 0, .advance 0, .resubmit 0, .enter 1, .sleep 1, .cancel 0, .cancelSleeper 0 1,
    .interrupted 1, .cancelSuper 0 true, .shutdownNow, .clear 1, .test 1]

theorem schedule_run_on_time_undisturbed :
    (run step {} undisturbed).map (fun s => (s.now, (s.tasks 0).starts, (s.tasks 0).stops, (s.threads 1).pc)) =
      some (17, [5], [17], .ended) ∧
    EveryState step Punctual {} undisturbed :=
  ⟨by decide +kernel, schedule_run_on_time undisturbed (by decide +kernel)⟩

/-- `shutdownNow` ends the sleep of a task that is due in a microsecond, and its body starts at once. -/
theorem early_start :
    ¬ EveryState step Punctual {}
      [.schedule .delayed 1000, .sleep 0, .shutdownNow, .interrupted 0, .test 0, .call 0] := by
  intro hall
  have honTime : (1000 : Int) ≤ 0 := (hall.last rfl).onTime 0 0 (by decide)
  omega

end LoomScheduler

end Sqlol

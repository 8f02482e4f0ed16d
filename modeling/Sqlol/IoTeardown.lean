/-
The end of a handle: `unregistered` and then `close`, once each, by a `cancel`
from any thread or by `prepareToDestroy`.

The set of registrations decides who tells the handle: the task that removes it.
`prepareToDestroy` cancels every registration it comes to and then clears the
set. A registration whose flag a foreign thread has set already is not cancelled
again, and when that thread's task has still to run, the set is cleared under
it: nobody closes the handle (`handle_not_closed`).
-/
import Sqlol.Runs
import Sqlol.LoomIoHandler

namespace Sqlol

namespace LoomIoHandler

variable {Op : Type}

/-- `prepareToDestroy` has returned, or thrown. -/
def Phase.ended : Phase → Bool
  | .running | .destroying _ => false
  | .destroyed | .threw => true

/-- Behind `prepareToDestroy` and every task, each handle was told the end, and told it once. -/
def TornDown (s : Handler Op) : Prop :=
  s.phase.ended = true → s.flagged = [] → s.tasks = [] →
    ∀ r < s.next, (s.regs r).events = [.unregistered, .close]

/-- `prepareToDestroy` comes to no registration that a foreign thread is
cancelling, and no `unregistered` throws out of it. -/
def Undisturbed (s : Handler Op) : Label Op → Prop
  | .visit r throws => (s.regs r).canceled = false ∧ throws = false
  | _ => True

instance (s : Handler Op) : ∀ l, Decidable (Undisturbed s l)
  | .visit r throws => inferInstanceAs (Decidable ((s.regs r).canceled = false ∧ throws = false))
  | .register | .submit .. | .offer .. | .enqueue _ | .cancel _ | .execute _ | .cancelHere _ | .task | .run | .poll
  | .drain _ | .handled | .handleThrows | .prepareToDestroy | .clear => inferInstanceAs (Decidable True)

/-! ## The invariant -/

/-- A handle is told the end when its registration leaves the set. -/
def Told (reg : LoomIoRegistration Op) : Prop :=
  reg.events = if reg.registered then [] else [.unregistered, .close]

/-- The registrations that `prepareToDestroy` is done with. -/
def Phase.done (next : Nat) : Phase → List Nat
  | .running => []
  | .destroying visited => visited
  | .destroyed | .threw => List.range next

/-- Everybody was told, and what is done is registered no longer. -/
structure Ended (s : Handler Op) : Prop where
  told : ∀ r < s.next, Told (s.regs r)
  gone : ∀ r ∈ s.phase.done s.next, (s.regs r).registered = false

theorem ended_start : Ended ({} : Handler Op) where
  told r h := absurd h (Nat.not_lt_zero r)
  gone _ h := by cases h

theorem Ended.tornDown {s : Handler Op} (hi : Ended s) : TornDown s := by
  intro hended _ _ r hr
  have hgone : (s.regs r).registered = false := by
    refine hi.gone r ?_
    cases hp : s.phase with
    | running | destroying visited => rw [hp] at hended; cases hended
    | destroyed | threw => exact List.mem_range.mpr hr
  have htold := hi.told r hr
  rw [Told, hgone] at htold
  exact htold

theorem told_remove {reg : LoomIoRegistration Op} (h : Told reg) : Told reg.remove := by
  simp only [LoomIoRegistration.remove]
  split
  · next hr =>
    rw [Told, hr] at h
    simp only [Told, h]
    rfl
  · exact h

theorem remove_registered (reg : LoomIoRegistration Op) : reg.remove.registered = false := by
  simp only [LoomIoRegistration.remove]
  split
  · rfl
  · next h => exact Bool.not_eq_true _ ▸ h

theorem told_cancelNow {reg : LoomIoRegistration Op} (h : Told reg) : Told reg.cancelNow := by
  simp only [LoomIoRegistration.cancelNow]
  split
  · exact h
  · exact told_remove h

section
variable {s s' : Handler Op}

/-- One registration changes: it has left the set if it had, and its handle was told if it has. -/
theorem Ended.update (hi : Ended s) {r : Nat} {reg : LoomIoRegistration Op} (hnext : s'.next = s.next)
    (hregs : s'.regs = Function.update s.regs r reg) (htold : Told (s.regs r) → Told reg)
    (hgone : (s.regs r).registered = false → reg.registered = false)
    (hdone : ∀ q ∈ s'.phase.done s'.next, q ∈ s.phase.done s.next ∨ (q = r ∧ reg.registered = false)) : Ended s' := by
  have self : s'.regs r = reg := by rw [hregs, Function.update_self]
  have other : ∀ q, q ≠ r → s'.regs q = s.regs q := fun q hq => by rw [hregs, Function.update_of_ne hq]
  refine ⟨fun q hq => ?_, fun q hq => ?_⟩
  · by_cases hqr : q = r
    · subst hqr; rw [self]; exact htold (hi.told q (hnext ▸ hq))
    · rw [other q hqr]; exact hi.told q (hnext ▸ hq)
  · rcases hdone q hq with h | ⟨rfl, h⟩
    · by_cases hqr : q = r
      · subst hqr; rw [self]; exact hgone (hi.gone q h)
      · rw [other q hqr]; exact hi.gone q h
    · rw [self]; exact h

theorem Ended.same (hi : Ended s) (hnext : s'.next = s.next) (hregs : s'.regs = s.regs)
    (hdone : ∀ q ∈ s'.phase.done s'.next, q ∈ s.phase.done s.next) : Ended s' :=
  ⟨by rw [hnext, hregs]; exact hi.told, fun q hq => by rw [hregs]; exact hi.gone q (hdone q hq)⟩

theorem cancelNow_gone {reg : LoomIoRegistration Op} (h : reg.registered = false) :
    reg.cancelNow.registered = false := by
  simp only [LoomIoRegistration.cancelNow]
  split
  · exact h
  · exact remove_registered _

end

variable [DecidableEq Op]

theorem Ended.step {s s' : Handler Op} {l : Label Op} (hi : Ended s) (hu : Undisturbed s l)
    (h : step s l = some s') : Ended s' := by
  cases l with
  | register =>
    simp only [LoomIoHandler.step] at h
    split at h <;> cases h
    next hphase =>
    have self : (s.setReg s.next {}).regs s.next = {} := Function.update_self ..
    have other : ∀ r < s.next, (s.setReg s.next {}).regs r = s.regs r :=
      fun r hr => Function.update_of_ne (Nat.ne_of_lt hr) ..
    refine ⟨fun r hr => ?_, fun r hr => ?_⟩
    · rcases Nat.lt_succ_iff_lt_or_eq.mp hr with h | rfl
      · simp only [other r h]; exact hi.told r h
      · simp only [self]; rfl
    · have hr : r ∈ s.phase.done (s.next + 1) := hr
      rw [hphase.2] at hr
      cases hr
  | submit r op =>
    simp only [LoomIoHandler.step] at h
    split at h <;> cases h
    split
    · exact hi
    · exact hi.same rfl rfl fun _ h => h
  | offer r op =>
    simp only [LoomIoHandler.step] at h
    split at h <;> cases h
    exact hi.update rfl rfl id id fun _ h => .inl h
  | cancel r =>
    simp only [LoomIoHandler.step] at h
    split at h <;> cases h
    split
    · exact hi
    · have hregs : (s.setReg r { s.regs r with canceled := true }).regs =
          Function.update s.regs r { s.regs r with canceled := true } := rfl
      exact hi.update rfl hregs id id fun _ h => .inl h
  | enqueue r | execute r | run =>
    simp only [LoomIoHandler.step] at h
    split at h <;> cases h
    exact hi.same rfl rfl fun _ h => h
  | cancelHere r =>
    simp only [LoomIoHandler.step] at h
    split at h <;> cases h
    exact hi.update rfl rfl told_cancelNow cancelNow_gone fun _ h => .inl h
  | task =>
    simp only [LoomIoHandler.step] at h
    split at h
    · next r rest htasks =>
      split at h <;> cases h
      exact hi.update rfl rfl told_remove (fun _ => remove_registered _) fun _ h => .inl h
    · cases h
  | poll =>
    simp only [LoomIoHandler.step] at h
    split at h
    · split at h <;> cases h <;> exact hi.same rfl rfl fun _ h => h
    · cases h
  | drain deadline =>
    simp only [LoomIoHandler.step] at h
    split at h
    · next handled r count rest hs =>
      split at h
      · cases h
        exact hi.same rfl rfl fun _ h => h
      · split at h <;> cases h
        · exact hi.update rfl rfl id id fun _ h => .inl h
        · exact hi.update rfl rfl id id fun _ h => .inl h
    · cases h
  | handled | handleThrows =>
    simp only [LoomIoHandler.step] at h
    split at h
    · split at h <;> cases h
      exact hi.same rfl rfl fun _ h => h
    · cases h
  | prepareToDestroy =>
    simp only [LoomIoHandler.step] at h
    split at h <;> cases h
    exact hi.same rfl rfl fun _ h => by cases h
  | visit r throws =>
    simp only [LoomIoHandler.step] at h
    split at h
    · next visited hphase =>
      split at h <;> cases h
      obtain ⟨hc, rfl⟩ := hu
      -- The flag was clear, so the task runs here and the registration leaves the set.
      have hgone : (s.regs r).cancelNow.registered = false := by
        simp only [LoomIoRegistration.cancelNow, hc]
        exact remove_registered _
      refine hi.update rfl rfl told_cancelNow (fun _ => hgone) fun q hq => ?_
      simp only [Bool.false_eq_true, false_and, if_false, Phase.done, List.mem_cons] at hq
      rw [hphase]
      exact hq.symm.imp_right fun h => ⟨h, hgone⟩
    · cases h
  | clear =>
    simp only [LoomIoHandler.step] at h
    split at h
    · next visited hphase =>
      split at h <;> cases h
      next hall =>
      refine ⟨fun r hr => ?_, fun _ _ => rfl⟩
      -- Nothing was left to clear.
      have hgone : (s.regs r).registered = false := by
        by_contra hreg
        have hreg : (s.regs r).registered = true := by simpa using hreg
        have hv := hi.gone r (by rw [hphase]; exact hall r hr hreg)
        rw [hreg] at hv
        cases hv
      have htold := hi.told r hr
      rw [Told, hgone] at htold
      exact htold
    · cases h

/-- **Every handle is closed once**, over every interleaving of registrations,
cancels and one `prepareToDestroy` that finds no cancel half-way. -/
theorem teardown_run_closes (labels : List (Label Op)) (h : EveryStep step Undisturbed {} labels) :
    EveryState step TornDown {} labels :=
  everyState_of_invariant (fun _ _ _ hi hu hs => Ended.step hi hu hs) (fun _ hi => hi.tornDown) ended_start h

/-- Three handles: one cancelled by a foreign thread, one by its own `handle`, one by `prepareToDestroy`. -/
def cancelledInTime : List (Label Nat) :=
  [.register, .register, .register, .submit 1 7, .offer 1 7, .enqueue 1, .cancel 0, .run, .poll, .drain false,
    .cancelHere 1, .handled, .drain true, .execute 0, .task, .prepareToDestroy, .visit 2 false, .clear, .cancel 2]

theorem teardown_run_closes_in_time :
    (run step {} cancelledInTime).map (fun s => (s.phase, s.flagged, s.tasks, s.next)) = some (.destroyed, [], [], 3) ∧
    EveryState step TornDown {} cancelledInTime :=
  ⟨by decide, teardown_run_closes cancelledInTime (by decide)⟩

/-- The flag of the one registration is set, and its task comes behind `prepareToDestroy`. -/
theorem handle_not_closed :
    ¬ EveryState step TornDown ({} : Handler Nat)
      [.register, .cancel 0, .prepareToDestroy, .visit 0 false, .clear, .execute 0, .task] := by
  intro hall
  have hclosed := hall.last rfl rfl rfl rfl 0 (by decide)
  cases hclosed

end LoomIoHandler

end Sqlol

/-
What is submitted to a registration is passed to its handle, once and in order.

Each `submit` puts one operation into the registration's queue and one entry
into the queue of runnable registrations. A `run` takes one entry and drains the
registration, so entries may be left that find nothing; what has to be excluded
is the reverse, operations without an entry, when a handle throws half-way. The
invariant counts: there are at most as many operations as entries, submits that
have still to make theirs, and drains that have not taken their first operation.
-/
import Sqlol.Runs
import Sqlol.LoomIoHandler

namespace Sqlol

namespace LoomIoHandler

variable {Op : Type}

/-- The registration a `run` call is draining. -/
def Pc.drains : Pc Op → Option Nat
  | .polling => none
  | .draining r _ | .handling r _ _ => some r

/-- It has taken an entry and no operation yet. -/
def Frame.fresh (r : Nat) (f : Frame Op) : Bool :=
  match f.pc with
  | .draining r' 0 => r' = r
  | _ => false

/-- For a registration that is not cancelled: what its handle was given and what
is still queued are, in order, what was submitted; and what is queued will be
looked at. -/
structure Delivers (s : Handler Op) (r : Nat) : Prop where
  order : (s.regs r).accepted = (s.regs r).passed ++ (s.regs r).submittedOps
  found : (s.regs r).submittedOps ≠ [] → r ∈ s.runnableRegistrations ∨ r ∈ s.offered ∨
    ∃ f ∈ s.stack, f.pc.drains = some r

/-- What every registration that is not cancelled is owed. -/
def Delivered (s : Handler Op) : Prop := ∀ r < s.next, (s.regs r).canceled = false → Delivers s r

/-! ## The invariant -/

/-- The registrations `prepareToDestroy` has been at. -/
def Phase.visited : Phase → List Nat
  | .destroying visited => visited
  | .running | .destroyed | .threw => []

/-- What may be queued for a registration. -/
def cover (s : Handler Op) (r : Nat) : Nat :=
  s.runnableRegistrations.count r + s.offered.count r + s.stack.countP (·.fresh r)

/-- Nothing that was accepted is lost, reordered or left without a visit to come. -/
structure Inv (s : Handler Op) : Prop where
  order : ∀ r < s.next, (s.regs r).canceled = false →
    (s.regs r).accepted = (s.regs r).passed ++ (s.regs r).submittedOps
  covered : ∀ r < s.next, (s.regs r).canceled = false → (s.regs r).submittedOps.length ≤ cover s r
  registered : ∀ r < s.next, (s.regs r).canceled = false → (s.regs r).registered = true
  queued : ∀ r ∈ s.flagged ++ s.tasks, r < s.next ∧ (s.regs r).canceled = true
  visited : ∀ r ∈ s.phase.visited, (s.regs r).canceled = true

theorem inv_start : Inv ({} : Handler Op) where
  order r h := absurd h (Nat.not_lt_zero r)
  covered r h := absurd h (Nat.not_lt_zero r)
  registered r h := absurd h (Nat.not_lt_zero r)
  queued _ h := by cases h
  visited _ h := by cases h

theorem drains_of_fresh {f : Frame Op} {r : Nat} (h : f.fresh r = true) : f.pc.drains = some r := by
  obtain ⟨handled, pc⟩ := f
  cases pc with
  | polling => cases h
  | draining r' count =>
    cases count with
    | zero => exact congrArg some (of_decide_eq_true h)
    | succ n => cases h
  | handling r' count op => cases h

theorem Inv.delivered {s : Handler Op} (hi : Inv s) : Delivered s := by
  intro r hr hc
  refine ⟨hi.order r hr hc, fun hne => ?_⟩
  have hpos : 0 < cover s r := Nat.lt_of_lt_of_le (List.length_pos_iff.mpr hne) (hi.covered r hr hc)
  simp only [cover] at hpos
  by_cases hrun : r ∈ s.runnableRegistrations
  · exact .inl hrun
  by_cases hoff : r ∈ s.offered
  · exact .inr (.inl hoff)
  rw [List.count_eq_zero_of_not_mem hrun, List.count_eq_zero_of_not_mem hoff] at hpos
  have hstack : 0 < s.stack.countP (·.fresh r) := by omega
  obtain ⟨f, hf, hfresh⟩ := List.countP_pos_iff.mp hstack
  exact .inr (.inr ⟨f, hf, drains_of_fresh hfresh⟩)

/-! ## The steps -/

section
variable {s s' : Handler Op}

/-- One registration changes, and what covers the others does not shrink. -/
theorem Inv.update (hi : Inv s) {r : Nat} {reg : LoomIoRegistration Op} (hnext : s'.next = s.next)
    (hregs : s'.regs = Function.update s.regs r reg) (hcover : ∀ q, q ≠ r → cover s q ≤ cover s' q)
    (hqueued : ∀ q ∈ s'.flagged ++ s'.tasks, q ∈ s.flagged ++ s.tasks ∨
      (q = r ∧ r < s.next ∧ reg.canceled = true))
    (hvisited : ∀ q ∈ s'.phase.visited, q ∈ s.phase.visited ∨ (q = r ∧ reg.canceled = true))
    (hcancel : (s.regs r).canceled = true → reg.canceled = true)
    (hself : r < s.next → reg.canceled = false → reg.accepted = reg.passed ++ reg.submittedOps ∧
      reg.submittedOps.length ≤ cover s' r ∧ reg.registered = true) : Inv s' := by
  have self : s'.regs r = reg := by rw [hregs, Function.update_self]
  have other : ∀ q, q ≠ r → s'.regs q = s.regs q := fun q hq => by rw [hregs, Function.update_of_ne hq]
  have kept : ∀ q, (s.regs q).canceled = true → (s'.regs q).canceled = true := fun q h => by
    by_cases hq : q = r
    · subst hq; rw [self]; exact hcancel h
    · rw [other q hq]; exact h
  refine ⟨fun q hq hc => ?_, fun q hq hc => ?_, fun q hq hc => ?_, fun q hq => ?_, fun q hq => ?_⟩
  · by_cases hqr : q = r
    · subst hqr; rw [self] at hc ⊢; exact (hself (hnext ▸ hq) hc).1
    · rw [other q hqr] at hc ⊢; exact hi.order q (hnext ▸ hq) hc
  · by_cases hqr : q = r
    · subst hqr; rw [self] at hc ⊢; exact (hself (hnext ▸ hq) hc).2.1
    · rw [other q hqr] at hc ⊢; exact Nat.le_trans (hi.covered q (hnext ▸ hq) hc) (hcover q hqr)
  · by_cases hqr : q = r
    · subst hqr; rw [self] at hc ⊢; exact (hself (hnext ▸ hq) hc).2.2
    · rw [other q hqr] at hc ⊢; exact hi.registered q (hnext ▸ hq) hc
  · rw [hnext]
    rcases hqueued q hq with h | ⟨rfl, h⟩
    · exact ⟨(hi.queued q h).1, kept q (hi.queued q h).2⟩
    · rw [self]; exact h
  · rcases hvisited q hq with h | ⟨rfl, h⟩
    · exact kept q (hi.visited q h)
    · rw [self]; exact h

/-- Only the queues and the stack change, and cover what they covered. -/
theorem Inv.requeue (hi : Inv s) (hnext : s'.next = s.next) (hregs : s'.regs = s.regs)
    (hqueued : ∀ q ∈ s'.flagged ++ s'.tasks, q ∈ s.flagged ++ s.tasks)
    (hvisited : ∀ q ∈ s'.phase.visited, q ∈ s.phase.visited)
    (hcover : ∀ q, (s.regs q).canceled = false → (s.regs q).submittedOps.length ≤ cover s q →
      (s.regs q).submittedOps.length ≤ cover s' q) : Inv s' := by
  refine ⟨?_, ?_, ?_, ?_, ?_⟩
  · rw [hnext, hregs]; exact hi.order
  · rw [hnext, hregs]; exact fun q hq hc => hcover q hc (hi.covered q hq hc)
  · rw [hnext, hregs]; exact hi.registered
  · rw [hnext, hregs]; exact fun q hq => hi.queued q (hqueued q hq)
  · rw [hregs]; exact fun q hq => hi.visited q (hvisited q hq)

/-- The innermost `run` call moves on to a place that covers as much. -/
theorem Inv.restack (hi : Inv s) {f : Frame Op} {rest stack : List (Frame Op)} (hs : s.stack = f :: rest)
    (hfresh : ∀ q, (s.regs q).canceled = false → f.fresh q = true → (s.regs q).submittedOps = [])
    (hstack : ∀ q, rest.countP (·.fresh q) ≤ stack.countP (·.fresh q)) : Inv { s with stack } := by
  refine hi.requeue rfl rfl (fun _ h => h) (fun _ h => h) fun q hc hle => ?_
  have hq := hstack q
  simp only [cover, hs, List.countP_cons] at hle ⊢
  by_cases hf : f.fresh q = true
  · rw [hfresh q hc hf]; exact Nat.zero_le _
  · simp only [hf, Bool.false_eq_true, if_false] at hle
    omega

/-- A new registration has nothing queued. -/
theorem Inv.register (hi : Inv s) (hphase : s.phase = .running) :
    Inv { s.setReg s.next {} with next := s.next + 1 } := by
  have self : (s.setReg s.next {}).regs s.next = {} := Function.update_self ..
  have other : ∀ r < s.next, (s.setReg s.next {}).regs r = s.regs r :=
    fun r hr => Function.update_of_ne (Nat.ne_of_lt hr) ..
  refine ⟨fun r hr hc => ?_, fun r hr hc => ?_, fun r hr hc => ?_, fun r hr => ?_, fun r hr => ?_⟩
  · rcases Nat.lt_succ_iff_lt_or_eq.mp hr with h | rfl
    · simp only [other r h] at hc ⊢; exact hi.order r h hc
    · simp only [self, List.append_nil]
  · rcases Nat.lt_succ_iff_lt_or_eq.mp hr with h | rfl
    · simp only [other r h] at hc ⊢; exact hi.covered r h hc
    · simp only [self, List.length_nil, Nat.zero_le]
  · rcases Nat.lt_succ_iff_lt_or_eq.mp hr with h | rfl
    · simp only [other r h] at hc ⊢; exact hi.registered r h hc
    · simp only [self]
  · obtain ⟨hlt, hc⟩ := hi.queued r hr
    exact ⟨Nat.lt_succ_of_lt hlt, by simp only [other r hlt]; exact hc⟩
  · have hr : r ∈ s.phase.visited := hr
    rw [hphase] at hr
    cases hr

theorem cancelNow_canceled (reg : LoomIoRegistration Op) : reg.cancelNow.canceled = true := by
  simp only [LoomIoRegistration.cancelNow]
  split
  · next h => exact h
  · simp only [LoomIoRegistration.remove]
    split <;> rfl

theorem remove_canceled (reg : LoomIoRegistration Op) : reg.remove.canceled = reg.canceled := by
  simp only [LoomIoRegistration.remove]
  split <;> rfl

/-- A registration that is cancelled from here on. -/
theorem Inv.cancelled (hi : Inv s) {r : Nat} {reg : LoomIoRegistration Op} (hc : reg.canceled = true)
    (hnext : s'.next = s.next) (hregs : s'.regs = Function.update s.regs r reg)
    (hcover : ∀ q, q ≠ r → cover s q ≤ cover s' q)
    (hqueued : ∀ q ∈ s'.flagged ++ s'.tasks, q ∈ s.flagged ++ s.tasks ∨ (q = r ∧ r < s.next))
    (hvisited : ∀ q ∈ s'.phase.visited, q ∈ s.phase.visited ∨ q = r) : Inv s' := by
  refine hi.update hnext hregs hcover (fun q hq => ?_) (fun q hq => ?_) (fun _ => hc) fun _ hf => ?_
  · exact (hqueued q hq).imp_right fun h => ⟨h.1, h.2, hc⟩
  · exact (hvisited q hq).imp_right fun h => ⟨h, hc⟩
  · rw [hc] at hf; cases hf

end

variable [DecidableEq Op]

theorem Inv.step {s s' : Handler Op} {l : Label Op} (hi : Inv s) (h : step s l = some s') : Inv s' := by
  cases l with
  | register =>
    simp only [LoomIoHandler.step] at h
    split at h <;> cases h
    next hphase =>
    exact hi.register hphase.2
  | submit r op =>
    simp only [LoomIoHandler.step] at h
    split at h <;> cases h
    split
    · exact hi
    · exact hi.requeue rfl rfl (fun _ h => h) (fun _ h => h) fun _ _ hle => hle
  | offer r op =>
    simp only [LoomIoHandler.step] at h
    split at h <;> cases h
    refine hi.update rfl rfl (fun q hq => ?_) (fun q hq => .inl hq) (fun q hq => .inl hq) id fun hr hc => ?_
    · simp only [cover, Handler.setReg, List.count_cons]; omega
    · refine ⟨?_, ?_, hi.registered r hr hc⟩
      · simp only [hi.order r hr hc, List.append_assoc]
      · have := hi.covered r hr hc
        simp only [cover, Handler.setReg, List.count_cons, List.length_append, List.length_singleton, beq_self_eq_true,
          if_true] at this ⊢
        omega
  | enqueue r =>
    simp only [LoomIoHandler.step] at h
    split at h <;> cases h
    next hr =>
    refine hi.requeue rfl rfl (fun _ h => h) (fun _ h => h) fun q _ hle => Nat.le_trans hle ?_
    have hpos : 0 < s.offered.count r := List.count_pos_iff.mpr hr
    simp only [cover, List.count_append, List.count_erase, List.count_singleton]
    by_cases hq : r = q
    · subst hq
      simp only [beq_self_eq_true, if_true]
      omega
    · simp [hq]
  | cancel r =>
    simp only [LoomIoHandler.step] at h
    split at h <;> cases h
    next hr =>
    split
    · exact hi
    · refine hi.cancelled (r := r) rfl rfl rfl (fun _ _ => Nat.le_refl _) (fun q hq => ?_) fun q hq => .inl hq
      rcases List.mem_cons.mp hq with rfl | hq
      · exact .inr ⟨rfl, hr⟩
      · exact .inl hq
  | execute r =>
    simp only [LoomIoHandler.step] at h
    split at h <;> cases h
    next hr =>
    refine hi.requeue rfl rfl (fun q hq => ?_) (fun _ h => h) fun _ _ hle => hle
    simp only [List.mem_append, List.mem_singleton] at hq ⊢
    rcases hq with hq | hq | rfl
    · exact .inl (List.mem_of_mem_erase hq)
    · exact .inr hq
    · exact .inl hr
  | cancelHere r =>
    simp only [LoomIoHandler.step] at h
    split at h <;> cases h
    exact hi.cancelled (cancelNow_canceled _) rfl rfl (fun _ _ => Nat.le_refl _) (fun _ hq => .inl hq)
      fun _ hq => .inl hq
  | task =>
    simp only [LoomIoHandler.step] at h
    split at h
    · next r rest htasks =>
      split at h <;> cases h
      have hmem : ∀ q ∈ s.flagged ++ rest, q ∈ s.flagged ++ s.tasks := by
        intro q hq
        rw [htasks]
        simp only [List.mem_append, List.mem_cons] at hq ⊢
        tauto
      have hc : (s.regs r).remove.canceled = true := by
        rw [remove_canceled]
        exact (hi.queued r (by simp [htasks])).2
      exact hi.cancelled hc rfl rfl (fun _ _ => Nat.le_refl _) (fun q hq => .inl (hmem q hq)) fun _ hq => .inl hq
    · cases h
  | run =>
    simp only [LoomIoHandler.step] at h
    split at h <;> cases h
    refine hi.requeue rfl rfl (fun _ h => h) (fun _ h => h) fun q _ hle => ?_
    simpa [cover, List.countP_cons, Frame.fresh] using hle
  | poll =>
    simp only [LoomIoHandler.step] at h
    split at h
    · next handled rest hs =>
      split at h <;> cases h
      · exact hi.restack hs (fun q _ hf => by cases hf) fun q => Nat.le_refl _
      · next r queue hqueue =>
        refine hi.requeue rfl rfl (fun _ h => h) (fun _ h => h) fun q hc hle => Nat.le_trans hle ?_
        have hf : Frame.fresh q (⟨handled, .polling⟩ : Frame Op) = false := rfl
        simp only [cover, hs, hqueue, List.countP_cons, List.count_cons, hf, Bool.false_eq_true, if_false]
        by_cases hrq : r = q
        · -- The entry of a valid registration becomes its drain.
          subst hrq
          simp only [hc, Bool.false_eq_true, if_false, beq_self_eq_true, if_true]
          have hnew : Frame.fresh r (⟨handled, .draining r 0⟩ : Frame Op) = true := decide_eq_true rfl
          simp only [hnew, if_true]
          omega
        · simp only [beq_iff_eq, hrq, if_false]
          omega
    · cases h
  | drain deadline =>
    simp only [LoomIoHandler.step] at h
    split at h
    · next handled r count rest hs =>
      have hfresh : ∀ q, Frame.fresh q (⟨handled, .draining r count⟩ : Frame Op) = true → r = q := fun q hf =>
        Option.some.inj (drains_of_fresh hf)
      have hafter : ∀ q, rest.countP (·.fresh q) ≤
          (if deadline then rest else ⟨handled + count, .polling⟩ :: rest).countP (·.fresh q) := fun q => by
        split
        · exact Nat.le_refl _
        · simp [Frame.fresh]
      split at h
      · next hops =>
        cases h
        refine hi.restack hs (fun q _ hf => ?_) hafter
        rw [← hfresh q hf]
        exact hops
      · next op ops hops =>
        have hother : ∀ q, q ≠ r → s.stack.countP (·.fresh q) = rest.countP (·.fresh q) := fun q hq => by
          rw [hs, List.countP_cons, if_neg, Nat.add_zero]
          exact fun hf => hq (hfresh q hf).symm
        split at h <;> cases h
        · next hc =>
          have hreg : ({ s.regs r with submittedOps := ops } : LoomIoRegistration Op).canceled = true := hc
          refine hi.cancelled hreg rfl rfl (fun q hq => ?_) (fun _ hq => .inl hq) fun _ hq => .inl hq
          have := hafter q
          simp only [cover, hother q hq, Handler.endDrain, Handler.setReg]
          omega
        · next hc =>
          have hc : (s.regs r).canceled = false := by simpa using hc
          have hnew : ∀ q, Frame.fresh q (⟨handled, .handling r count op⟩ : Frame Op) = false := fun _ => rfl
          refine hi.update rfl rfl (fun q hq => ?_) (fun _ hq => .inl hq) (fun _ hq => .inl hq) id fun hr _ => ?_
          · simp only [cover, hother q hq, Handler.setReg, List.countP_cons, hnew, Bool.false_eq_true, if_false]
            omega
          · refine ⟨?_, ?_, hi.registered r hr hc⟩
            · simp only [hi.order r hr hc, hops, List.append_assoc, List.singleton_append]
            · have hle := hi.covered r hr hc
              have hone : s.stack.countP (·.fresh r) ≤ rest.countP (·.fresh r) + 1 := by
                rw [hs, List.countP_cons]
                split <;> omega
              simp only [cover, hops, List.length_cons, Handler.setReg, List.countP_cons, hnew, Bool.false_eq_true,
                if_false] at hle ⊢
              omega
    · cases h
  | handled =>
    simp only [LoomIoHandler.step] at h
    split at h
    · next handled r count op rest hs =>
      split at h <;> cases h
      refine hi.restack hs (fun q _ hf => by cases hf) fun q => ?_
      simp [Frame.fresh]
    · cases h
  | handleThrows =>
    simp only [LoomIoHandler.step] at h
    split at h
    · next hs =>
      split at h <;> cases h
      exact hi.restack hs (fun q _ hf => by cases hf) fun q => Nat.le_refl _
    · cases h
  | prepareToDestroy =>
    simp only [LoomIoHandler.step] at h
    split at h <;> cases h
    exact hi.requeue rfl rfl (fun _ h => h) (fun _ h => by cases h) fun _ _ hle => hle
  | visit r throws =>
    simp only [LoomIoHandler.step] at h
    split at h
    · next visited hphase =>
      split at h <;> cases h
      refine hi.cancelled (cancelNow_canceled _) rfl rfl (fun _ _ => Nat.le_refl _) (fun _ hq => .inl hq)
        fun q hq => ?_
      simp only [hphase, Phase.visited]
      split at hq
      · cases hq
      · exact (List.mem_cons.mp hq).symm
    · cases h
  | clear =>
    simp only [LoomIoHandler.step] at h
    split at h
    · next visited hphase =>
      split at h <;> cases h
      next hall =>
      -- Whatever was registered has been visited, and so cancelled.
      have hno : ∀ r < s.next, (s.regs r).canceled = false → False := fun r hr hc => by
        have hv := hi.visited r (by rw [hphase]; exact hall r hr (hi.registered r hr hc))
        rw [hc] at hv
        cases hv
      exact ⟨fun r hr hc => (hno r hr hc).elim, fun r hr hc => (hno r hr hc).elim,
        fun r hr hc => (hno r hr hc).elim, hi.queued, fun _ hr => by cases hr⟩
    · cases h

/-- **Nothing is lost, doubled or stranded**, over every interleaving of
registrations, submits, cancels, `run` calls that handles throw out of, and the
teardown: as long as a registration is not cancelled, its handle has been given
a first part of what was submitted, and what is left will be looked at. -/
theorem io_run_delivered (labels : List (Label Op)) : EveryState step Delivered {} labels :=
  everyState_of_invariant (fun _ _ _ hi _ hs => hi.step hs) (fun _ hi => hi.delivered) inv_start everyStep_true

end LoomIoHandler

end Sqlol

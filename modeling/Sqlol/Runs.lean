/-
Runs of a step function. A system is a partial function from a state and a
label to the next state; a label the state does not allow has no next state.

A run is a list of labels. `EveryState step P s ls` says that `P` holds in
every state the run passes through, `EveryStep step Q s ls` that `Q` holds of
every label in the state it is taken from. A side condition on a run is an
`EveryStep`, a safety property an `EveryState`, and `everyState_of_invariant`
is the one induction between them.
-/
import Mathlib.Tactic.Common

namespace Sqlol

variable {σ ℓ : Type*}

/-- The state a run ends in, when the states on the way allow every label. -/
def run (step : σ → ℓ → Option σ) : σ → List ℓ → Option σ
  | s, [] => some s
  | s, l :: ls => (step s l).bind (run step · ls)

/-- `P` in every state of the run, the first one included. -/
def EveryState (step : σ → ℓ → Option σ) (P : σ → Prop) : σ → List ℓ → Prop
  | s, [] => P s
  | s, l :: ls => P s ∧ ∀ s', step s l = some s' → EveryState step P s' ls

/-- `Q` of every label, in the state before it. -/
def EveryStep (step : σ → ℓ → Option σ) (Q : σ → ℓ → Prop) : σ → List ℓ → Prop
  | _, [] => True
  | s, l :: ls => Q s l ∧ ∀ s', step s l = some s' → EveryStep step Q s' ls

/-- Both are decided by running the labels. -/
instance EveryState.decidable (step : σ → ℓ → Option σ) (P : σ → Prop) [DecidablePred P] :
    ∀ (ls : List ℓ) (s : σ), Decidable (EveryState step P s ls)
  | [], s => inferInstanceAs (Decidable (P s))
  | l :: ls, s =>
    match h : step s l with
    | none => decidable_of_iff (P s) ⟨fun hp => ⟨hp, fun s' hs => by rw [h] at hs; cases hs⟩, And.left⟩
    | some s' =>
      have := EveryState.decidable step P ls s'
      decidable_of_iff (P s ∧ EveryState step P s' ls)
        (and_congr_right fun _ => ⟨fun he t ht => by rw [h] at ht; cases ht; exact he, fun he => he s' h⟩)

instance EveryStep.decidable (step : σ → ℓ → Option σ) (Q : σ → ℓ → Prop) [∀ s l, Decidable (Q s l)] :
    ∀ (ls : List ℓ) (s : σ), Decidable (EveryStep step Q s ls)
  | [], _ => inferInstanceAs (Decidable True)
  | l :: ls, s =>
    match h : step s l with
    | none => decidable_of_iff (Q s l) ⟨fun hq => ⟨hq, fun s' hs => by rw [h] at hs; cases hs⟩, And.left⟩
    | some s' =>
      have := EveryStep.decidable step Q ls s'
      decidable_of_iff (Q s l ∧ EveryStep step Q s' ls)
        (and_congr_right fun _ => ⟨fun he t ht => by rw [h] at ht; cases ht; exact he, fun he => he s' h⟩)

variable {step : σ → ℓ → Option σ} {I P : σ → Prop} {ok Q : σ → ℓ → Prop}

theorem EveryState.head {s : σ} {ls : List ℓ} (h : EveryState step P s ls) : P s := by
  cases ls with
  | nil => exact h
  | cons l ls => exact h.1

/-- An invariant of the steps that meet `ok` holds along every run that meets it. -/
theorem everyState_of_invariant (hstep : ∀ s l s', I s → ok s l → step s l = some s' → I s')
    (hP : ∀ s, I s → P s) : ∀ {ls : List ℓ} {s : σ}, I s → EveryStep step ok s ls →
      EveryState step P s ls
  | [], s, hs, _ => hP s hs
  | l :: _, s, hs, h =>
    ⟨hP s hs, fun s' hs' => everyState_of_invariant hstep hP (hstep s l s' hs h.1 hs') (h.2 s' hs')⟩

/-- What an invariant gives of each single step, along every run that meets `ok`. -/
theorem everyStep_of_invariant (hstep : ∀ s l s', I s → ok s l → step s l = some s' → I s')
    (hQ : ∀ s l, I s → ok s l → Q s l) : ∀ {ls : List ℓ} {s : σ}, I s → EveryStep step ok s ls →
      EveryStep step Q s ls
  | [], _, _, _ => trivial
  | l :: _, s, hs, h =>
    ⟨hQ s l hs h.1, fun s' hs' => everyStep_of_invariant hstep hQ (hstep s l s' hs h.1 hs') (h.2 s' hs')⟩

/-- The other way: a property of every state that only steps meeting `ok` keep. -/
theorem everyStep_of_everyState (hstep : ∀ s l s', I s → ok s l → step s l = some s' → I s')
    (hok : ∀ s l, I s → (∀ s', step s l = some s' → P s') → ok s l) : ∀ {ls : List ℓ} {s : σ}, I s →
      EveryState step P s ls → EveryStep step ok s ls
  | [], _, _, _ => trivial
  | l :: _, s, hs, h =>
    have ho := hok s l hs fun s' hs' => (h.2 s' hs').head
    ⟨ho, fun s' hs' => everyStep_of_everyState hstep hok (hstep s l s' hs ho hs') (h.2 s' hs')⟩

theorem EveryStep.imp {Q' : σ → ℓ → Prop} (hQ : ∀ s l, Q s l → Q' s l) : ∀ {ls : List ℓ} {s : σ},
    EveryStep step Q s ls → EveryStep step Q' s ls
  | [], _, _ => trivial
  | l :: _, s, h => ⟨hQ s l h.1, fun s' hs' => (h.2 s' hs').imp hQ⟩

/-- A side condition that is always met. -/
theorem everyStep_true : ∀ {ls : List ℓ} {s : σ}, EveryStep step (fun _ _ => True) s ls
  | [], _ => trivial
  | _ :: _, _ => ⟨trivial, fun _ _ => everyStep_true⟩

/-- The rest of a run, from the state its first part ends in. -/
theorem EveryStep.append : ∀ {xs ys : List ℓ} {s s' : σ}, EveryStep step Q s (xs ++ ys) →
    run step s xs = some s' → EveryStep step Q s' ys
  | [], ys, s, s', h, hr => by
    simp only [run, Option.some.injEq] at hr
    subst hr
    exact h
  | l :: xs, ys, s, s', h, hr => by
    simp only [run, Option.bind_eq_some_iff] at hr
    obtain ⟨m, hm, hr⟩ := hr
    exact (h.2 m hm).append hr

theorem run_append {xs ys : List ℓ} {s : σ} : run step s (xs ++ ys) = (run step s xs).bind (run step · ys) := by
  induction xs generalizing s with
  | nil => rfl
  | cons l xs ih =>
    rw [List.cons_append, run, run, Option.bind_assoc]
    exact congrArg _ (funext fun m => ih)

/-- The end of a run is one of its states. -/
theorem EveryState.last : ∀ {ls : List ℓ} {s s' : σ}, EveryState step P s ls → run step s ls = some s' →
    P s'
  | [], s, s', h, hr => by
    simp only [run, Option.some.injEq] at hr
    subst hr
    exact h
  | l :: ls, s, s', h, hr => by
    simp only [run, Option.bind_eq_some_iff] at hr
    obtain ⟨m, hm, hr⟩ := hr
    exact (h.2 m hm).last hr

end Sqlol

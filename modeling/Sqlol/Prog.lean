/-
Programs over a state that may throw: what a program did before it threw
stays done, as in the JVM. `wp p Q E s` says where `p` goes from `s`: into `Q`
with its result when it returns, into `E` when it throws.

The rules are those a proof about a `do` block uses, one for each way to put
programs together; `wp_mono` weakens what is known behind a call to what the
caller needs.
-/
import Mathlib.Tactic.Common

namespace Sqlol

/-- No result: the program threw. -/
def Prog (σ α : Type) : Type := σ → Option α × σ

namespace Prog

variable {σ α β : Type}

instance : Monad (Prog σ) where
  pure a := fun s => (some a, s)
  bind p f := fun s => match p s with
    | (some a, s') => f a s'
    | (none, s') => (none, s')

/-- An exception. -/
def throw : Prog σ α := fun s => (none, s)

/-- The state is read. -/
def get : Prog σ σ := fun s => (some s, s)

/-- The state is changed. -/
def modify (f : σ → σ) : Prog σ Unit := fun s => (some (), f s)

/-- `if (bad) throw`. -/
def throwIf (bad : Bool) : Prog σ Unit := if bad then throw else pure ()

/-- `if (c) p`. -/
def onlyIf (c : Prop) [Decidable c] (p : Prog σ Unit) : Prog σ Unit := if c then p else pure ()

/-- `try p finally q`: what `q` throws wins. -/
def tryFinally (p : Prog σ α) (q : Prog σ Unit) : Prog σ α := fun s => match p s with
  | (r, s') => match q s' with
    | (some _, s'') => (r, s'')
    | (none, s'') => (none, s'')

/-- `catch (t: Throwable) { q; throw t }`. -/
def onThrow (p : Prog σ α) (q : Prog σ Unit) : Prog σ α := fun s => match p s with
  | (some a, s') => (some a, s')
  | (none, s') => (none, (q s').2)

/-- `repeat(n) { p; ... pause }`, left by the first result, an error behind the last. -/
def retry (pause : Prog σ Unit) (p : Prog σ (Option α)) : Nat → Prog σ α
  | 0 => throw
  | n + 1 => do
    match ← p with
    | some a => pure a
    | none => do
      pause
      retry pause p n

/-- `List(n) { f(it) }`, from the `i`-th on. -/
def listFrom (f : Nat → Prog σ α) : Nat → Nat → Prog σ (List α)
  | _, 0 => pure []
  | i, n + 1 => do
    let a ← f i
    let rest ← listFrom f (i + 1) n
    pure (a :: rest)

/-- `runCatching { p }`. -/
def catching (p : Prog σ α) : Prog σ Unit := fun s => (some (), (p s).2)

/-- A program on a part of the state. -/
def within {τ : Type} (part : τ → σ) (put : τ → σ → τ) (p : Prog σ α) : Prog τ α := fun t => match p (part t) with
  | (r, s) => (r, put t s)

theorem bind_of_some {p : Prog σ α} {f : α → Prog σ β} {s s' : σ} {a : α} (h : p s = (some a, s')) :
    (p >>= f) s = f a s' := by
  simp only [bind, h]

theorem bind_of_none {p : Prog σ α} {f : α → Prog σ β} {s s' : σ} (h : p s = (none, s')) :
    (p >>= f) s = (none, s') := by
  simp only [bind, h]

theorem bind_assoc {γ : Type} {p : Prog σ α} {f : α → Prog σ β} {f' : β → Prog σ γ} :
    p >>= f >>= f' = p >>= fun a => f a >>= f' := by
  funext s
  rcases hp : p s with ⟨_ | a, s'⟩
  · simp only [bind_of_none (bind_of_none hp), bind_of_none hp]
  · simp only [bind, hp]

/-- What `p` returned, `q` does not take away when it returns. -/
theorem tryFinally_result {p : Prog σ α} {q : Prog σ Unit} {s s' : σ} {a : α} (hp : p s = (some a, s'))
    (hq : (q s').1 = some ()) : (tryFinally p q s).1 = some a := by
  rcases hr : q s' with ⟨_ | b, s''⟩ <;> rw [hr] at hq
  · cases hq
  · simp only [tryFinally, hp, hr]

theorem bind_result {p : Prog σ α} {f : α → Prog σ β} {s : σ} {a : α} {b : β} (hp : (p s).1 = some a)
    (hf : ∀ s', (f a s').1 = some b) : ((p >>= f) s).1 = some b := by
  rcases hr : p s with ⟨r, s'⟩
  rw [hr] at hp
  subst hp
  rw [bind_of_some hr]
  exact hf s'

/-- The first attempt is enough. -/
theorem retry_result {pause : Prog σ Unit} {p : Prog σ (Option α)} {n : Nat} {s : σ} {a : α}
    (hp : (p s).1 = some (some a)) : (retry pause p (n + 1) s).1 = some a :=
  bind_result hp fun _ => rfl

/-- Where `p` goes from `s`: into `Q` with its result, or into `E` when it throws. -/
def wp (p : Prog σ α) (Q : α → σ → Prop) (E : σ → Prop) (s : σ) : Prop :=
  match p s with
  | (some a, s') => Q a s'
  | (none, s') => E s'

variable {p : Prog σ α} {Q Q' : α → σ → Prop} {E E' : σ → Prop} {s : σ}

theorem wp_mono (h : p.wp Q E s) (hQ : ∀ a s', Q a s' → Q' a s') (hE : ∀ s', E s' → E' s') : p.wp Q' E' s := by
  unfold wp at h ⊢
  split at h
  · exact hQ _ _ h
  · exact hE _ h

theorem wp_returned {a : α} {s' : σ} (h : p.wp Q E s) (hr : p s = (some a, s')) : Q a s' := by
  unfold wp at h
  rw [hr] at h
  exact h

/-- Where it goes is known: it returns, or it throws. -/
theorem wp_of_some {a : α} (hr : (p s).1 = some a) (hQ : Q a (p s).2) : p.wp Q E s := by
  unfold wp
  rcases hp : p s with ⟨r, s'⟩
  rw [hp] at hr hQ
  subst hr
  exact hQ

theorem wp_of_none (hr : (p s).1 = none) (hE : E (p s).2) : p.wp Q E s := by
  unfold wp
  rcases hp : p s with ⟨r, s'⟩
  rw [hp] at hr hE
  subst hr
  exact hE

/-- A program that always returns the same. -/
theorem wp_result {a : α} (h : p.wp (fun r _ => r = a) (fun _ => False) s) : (p s).1 = some a := by
  unfold wp at h
  rcases hp : p s with ⟨_ | r, s'⟩ <;> rw [hp] at h
  · exact h.elim
  · exact congrArg some h

/-- Two things known of one program. -/
theorem wp_and (h : p.wp Q E s) (h' : p.wp Q' E' s) : p.wp (fun a s => Q a s ∧ Q' a s) (fun s => E s ∧ E' s) s := by
  unfold wp at h h' ⊢
  split at h
  · next heq =>
    rw [heq] at h'
    exact ⟨h, h'⟩
  · next heq =>
    rw [heq] at h'
    exact ⟨h, h'⟩

/-- What holds however the program ends, holds of the state it leaves. -/
theorem wp_state (h : p.wp (fun _ => E) E s) : E (p s).2 := by
  unfold wp at h
  split at h
  · next heq => rw [heq]; exact h
  · next heq => rw [heq]; exact h

theorem wp_of_state (h : E (p s).2) : p.wp (fun _ => E) E s := by
  unfold wp
  split
  · next heq => rwa [heq] at h
  · next heq => rwa [heq] at h

/-- What is known of both ends, said of the result. -/
theorem wp_run {R : Option α → σ → Prop} (h : p.wp (fun a => R (some a)) (R none) s) : R (p s).1 (p s).2 := by
  unfold wp at h
  split at h
  · next heq => rw [heq]; exact h
  · next heq => rw [heq]; exact h

@[simp] theorem wp_pure {a : α} : wp (pure a) Q E s ↔ Q a s := Iff.rfl

@[simp] theorem wp_throw : wp throw Q E s ↔ E s := Iff.rfl

@[simp] theorem wp_get {Q : σ → σ → Prop} : wp get Q E s ↔ Q s s := Iff.rfl

@[simp] theorem wp_modify {f : σ → σ} {Q : Unit → σ → Prop} : wp (modify f) Q E s ↔ Q () (f s) := Iff.rfl

theorem wp_bind {f : α → Prog σ β} {Q : β → σ → Prop} :
    wp (p >>= f) Q E s ↔ p.wp (fun a => (f a).wp Q E) E s := by
  simp only [wp, bind]
  rcases hp : p s with ⟨_ | a, s'⟩ <;> rfl

/-- One call of a `do` block, and the rest behind it. -/
theorem wp_then {f : α → Prog σ β} {Q : β → σ → Prop} {R : α → σ → Prop} (hp : p.wp R E s)
    (hf : ∀ a s', R a s' → (f a).wp Q E s') : wp (p >>= f) Q E s :=
  wp_bind.mpr (wp_mono hp hf fun _ h => h)

theorem wp_bind_some {f : α → Prog σ β} {Q : β → σ → Prop} {s' : σ} {a : α} (hp : p s = (some a, s')) :
    wp (p >>= f) Q E s ↔ (f a).wp Q E s' := by
  unfold wp
  rw [bind_of_some hp]

theorem wp_bind_none {f : α → Prog σ β} {Q : β → σ → Prop} {s' : σ} (hp : p s = (none, s')) :
    wp (p >>= f) Q E s ↔ E s' := by
  unfold wp
  rw [bind_of_none hp]

/-- A call that is known to return. -/
theorem wp_next {f : α → Prog σ β} {Q : β → σ → Prop} {s' : σ} {a : α} (hp : p s = (some a, s'))
    (hf : (f a).wp Q E s') : wp (p >>= f) Q E s := (wp_bind_some hp).mpr hf

/-- A call that throws: the rest does not begin. -/
theorem wp_stop {f : α → Prog σ β} {Q : β → σ → Prop} (hp : p.wp (fun _ _ => False) E s)
    (hE : ∀ s', E s' → E' s') : wp (p >>= f) Q E' s :=
  wp_bind.mpr (wp_mono hp (fun _ _ h => h.elim) hE)

theorem wp_throwIf {bad : Bool} {Q : Unit → σ → Prop} :
    wp (throwIf bad) Q E s ↔ if bad = true then E s else Q () s := by
  cases bad <;> rfl

theorem wp_onlyIf {c : Prop} [Decidable c] {p : Prog σ Unit} {Q : Unit → σ → Prop} :
    wp (onlyIf c p) Q E s ↔ if c then p.wp Q E s else Q () s := by
  unfold onlyIf
  split <;> rfl

theorem wp_tryFinally {q : Prog σ Unit} :
    wp (tryFinally p q) Q E s ↔ p.wp (fun a => q.wp (fun _ => Q a) E) (q.wp (fun _ => E) E) s := by
  simp only [wp, tryFinally]
  rcases hp : p s with ⟨_ | a, s'⟩ <;> rcases hq : q s' with ⟨_ | b, s''⟩ <;> simp only [hq]

theorem wp_onThrow {q : Prog σ Unit} :
    wp (onThrow p q) Q E s ↔ p.wp Q (q.wp (fun _ => E) E) s := by
  simp only [wp, onThrow]
  rcases hp : p s with ⟨_ | a, s'⟩
  · rcases hq : q s' with ⟨_ | b, s''⟩ <;> simp only [hq]
  · rfl

theorem wp_within {τ : Type} {part : τ → σ} {put : τ → σ → τ} {Q : α → τ → Prop} {E : τ → Prop} {t : τ} :
    wp (within part put p) Q E t ↔ p.wp (fun a s' => Q a (put t s')) (fun s' => E (put t s')) (part t) := by
  simp only [wp, within]
  rcases hp : p (part t) with ⟨_ | a, s'⟩ <;> rfl

/-- Nothing that the program does, up to where it throws, takes `P` away. -/
def Keeps (P : σ → Prop) (p : Prog σ α) : Prop := ∀ s, P s → p.wp (fun _ => P) P s

section
variable {P : σ → Prop}

theorem keeps_pure (a : α) : Keeps P (pure a) := fun _ h => h

theorem keeps_get : Keeps P get := fun _ h => h

theorem keeps_modify {f : σ → σ} (h : ∀ s, P s → P (f s)) : Keeps P (modify f) := h

theorem keeps_throwIf (bad : Bool) : Keeps P (throwIf bad) := fun s h => by
  rw [wp_throwIf]
  split <;> exact h

theorem Keeps.state (hp : Keeps P p) (hs : P s) : P (p s).2 := wp_state (hp s hs)

/-- What holds behind the first part of a program, holds behind the whole. -/
theorem state_bind {f : α → Prog σ β} (h : P (p s).2) (hf : ∀ a, Keeps P (f a)) : P ((p >>= f) s).2 := by
  rcases hp : p s with ⟨_ | a, s'⟩
  · rw [bind_of_none hp]
    rw [hp] at h
    exact h
  · rw [bind_of_some hp]
    rw [hp] at h
    exact (hf a).state h

theorem state_tryFinally {q : Prog σ Unit} (h : P (p s).2) (hq : Keeps P q) : P ((Prog.tryFinally p q) s).2 := by
  have hq' : P (q (p s).2).2 := hq.state h
  simp only [Prog.tryFinally]
  rcases hr : q (p s).2 with ⟨_ | b, s'⟩ <;> rw [hr] at hq' <;> exact hq'

/-- Where only what is returned counts. -/
theorem Keeps.returns (hp : Keeps P p) (hs : P s) : p.wp (fun _ => P) (fun _ => True) s :=
  wp_mono (hp s hs) (fun _ _ h => h) fun _ _ => trivial

theorem Keeps.bind {f : α → Prog σ β} (hp : Keeps P p) (hf : ∀ a, Keeps P (f a)) : Keeps P (p >>= f) :=
  fun s h => wp_then (hp s h) fun a s' h' => hf a s' h'

theorem Keeps.onlyIf {c : Prop} [Decidable c] {p : Prog σ Unit} (hp : Keeps P p) : Keeps P (Prog.onlyIf c p) :=
  fun s h => by
    rw [wp_onlyIf]
    split
    · exact hp s h
    · exact h

theorem Keeps.listFrom {f : Nat → Prog σ α} (hf : ∀ i, Keeps P (f i)) : ∀ i n, Keeps P (Prog.listFrom f i n)
  | _, 0 => keeps_pure []
  | i, n + 1 => (hf i).bind fun a => (Keeps.listFrom hf (i + 1) n).bind fun rest => keeps_pure (a :: rest)

theorem Keeps.tryFinally {q : Prog σ Unit} (hp : Keeps P p) (hq : Keeps P q) : Keeps P (Prog.tryFinally p q) :=
  fun s h => wp_tryFinally.mpr (wp_mono (hp s h) (fun _ s' h' => hq s' h') fun s' h' => hq s' h')

end

/-- The items one by one, under what each of them keeps. -/
theorem wp_listFrom {f : Nat → Prog σ α} {F : Nat → α} {I : σ → Prop} {j : Nat}
    (hf : ∀ i < j, ∀ s, I s → (f i).wp (fun a s' => a = F i ∧ I s') E s) :
    ∀ (n i : Nat) (s : σ), i + n ≤ j → I s →
      (listFrom f i n).wp (fun as s' => as = (List.range' i n).map F ∧ I s') E s
  | 0, _, _, _, hs => ⟨rfl, hs⟩
  | n + 1, i, s, hj, hs => by
    refine wp_then (hf i (by omega) s hs) fun a s₁ h₁ => ?_
    refine wp_then (wp_listFrom hf n (i + 1) s₁ (by omega) h₁.2) fun as s₂ h₂ => ?_
    refine ⟨?_, h₂.2⟩
    rw [List.range'_succ, List.map_cons, h₁.1, h₂.1]

/-- What every attempt keeps, and gives with its result. -/
theorem wp_retry {pause : Prog σ Unit} {p : Prog σ (Option α)} {I : σ → Prop}
    (hpause : ∀ s, I s → pause.wp (fun _ => I) E s)
    (hp : ∀ s, I s → p.wp (fun r s' => match r with | some a => Q a s' | none => I s') E s) (hE : ∀ s, I s → E s) :
    ∀ (n : Nat) (s : σ), I s → (retry pause p n).wp Q E s
  | 0, s, hs => hE s hs
  | n + 1, s, hs => by
    refine wp_then (hp s hs) fun r s' hr => ?_
    cases r with
    | some a => exact hr
    | none => exact wp_then (hpause s' hr) fun _ s'' h => wp_retry hpause hp hE n s'' h

end Prog

end Sqlol

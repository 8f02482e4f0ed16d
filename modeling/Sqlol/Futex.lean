/-
Words of a shared memory with wait and notify, over any addresses, threads and
values.

`wait` sleeps when the word still has the value its caller has seen, and returns at
once when it has not; the comparison and falling asleep are one step. `notify` wakes
the threads that have slept longest on an address, as many as it is given.

A thread is lost when it sleeps on a word that has changed and nobody is going to
notify it. `Covered f owed` says that none is lost, where `owed` has the addresses
that are still to be notified: a store adds its address, and a notification pays it
off when it wakes all that sleep there.
-/
import Mathlib.Data.Set.Insert
import Mathlib.Logic.Function.Basic
import Mathlib.Tactic.Common

namespace Sqlol

/-- A sleeping thread, the address it sleeps on and the value it has seen there. -/
structure Sleeper (ι θ ω : Type*) where
  thread : θ
  addr : ι
  seen : ω

/-- Words that can be waited on, and who waits. -/
structure Futex (ι θ ω : Type*) where
  word : ι → ω
  sleepers : List (Sleeper ι θ ω) := []

namespace Futex

variable {ι θ ω : Type*}

/-- Leave out the first `n` that sleep on `i`. -/
def wakeFirst [DecidableEq ι] (i : ι) : Nat → List (Sleeper ι θ ω) → List (Sleeper ι θ ω)
  | 0, sleepers => sleepers
  | _ + 1, [] => []
  | n + 1, x :: sleepers => if x.addr = i then wakeFirst i n sleepers else x :: wakeFirst i (n + 1) sleepers

/-- An atomic store. -/
def store [DecidableEq ι] (f : Futex ι θ ω) (i : ι) (v : ω) : Futex ι θ ω :=
  { f with word := Function.update f.word i v }

/-- `wait` sleeps when the word has the value it expects. -/
def wait [DecidableEq ω] (f : Futex ι θ ω) (t : θ) (i : ι) (v : ω) : Futex ι θ ω :=
  if f.word i = v then { f with sleepers := f.sleepers ++ [⟨t, i, v⟩] } else f

/-- `notify` wakes the first `n` that sleep at the word. -/
def notify [DecidableEq ι] (f : Futex ι θ ω) (i : ι) (n : Nat) : Futex ι θ ω :=
  { f with sleepers := wakeFirst i n f.sleepers }

/-- The time a thread was going to sleep is over. -/
def timeout [DecidableEq θ] (f : Futex ι θ ω) (t : θ) : Futex ι θ ω :=
  { f with sleepers := f.sleepers.filter fun x => x.thread ≠ t }

/-- The thread sleeps. -/
def Asleep (f : Futex ι θ ω) (t : θ) : Prop := ∃ x ∈ f.sleepers, x.thread = t

instance [DecidableEq θ] (f : Futex ι θ ω) (t : θ) : Decidable (f.Asleep t) :=
  inferInstanceAs (Decidable (∃ x ∈ f.sleepers, x.thread = t))

/-- Whoever sleeps on a changed word is owed a notification. -/
def Covered (f : Futex ι θ ω) (owed : Set ι) : Prop := ∀ x ∈ f.sleepers, f.word x.addr = x.seen ∨ x.addr ∈ owed

section
variable {f : Futex ι θ ω} {i : ι} {n : Nat} {v : ω} {t u : θ} {owed : Set ι}

section
variable [DecidableEq ι]

@[simp] theorem store_word_self : (f.store i v).word i = v := Function.update_self ..

theorem store_word_ne {j : ι} (h : j ≠ i) : (f.store i v).word j = f.word j := Function.update_of_ne h ..

@[simp] theorem asleep_store : (f.store i v).Asleep t ↔ f.Asleep t := Iff.rfl

@[simp] theorem notify_word : (f.notify i n).word = f.word := rfl

theorem wakeFirst_sublist (i : ι) : ∀ (n : Nat) (l : List (Sleeper ι θ ω)), (wakeFirst i n l).Sublist l
  | 0, _ => by simp only [wakeFirst, List.Sublist.refl]
  | _ + 1, [] => by simp only [wakeFirst, List.Sublist.refl]
  | n + 1, x :: l => by
    simp only [wakeFirst]
    split
    · exact (wakeFirst_sublist i n l).cons x
    · exact (wakeFirst_sublist i (n + 1) l).cons_cons x

/-- Who sleeps elsewhere sleeps on. -/
theorem mem_wakeFirst_of_ne {x : Sleeper ι θ ω} (hx : x.addr ≠ i) : ∀ {n : Nat} {l : List (Sleeper ι θ ω)},
    x ∈ l → x ∈ wakeFirst i n l
  | 0, _, h => by simpa only [wakeFirst] using h
  | _ + 1, [], h => by cases h
  | n + 1, y :: l, h => by
    simp only [wakeFirst]
    rcases List.mem_cons.mp h with rfl | h
    · rw [if_neg hx]
      exact List.mem_cons_self
    · split
      · exact mem_wakeFirst_of_ne hx h
      · exact List.mem_cons_of_mem _ (mem_wakeFirst_of_ne hx h)

/-- A notification of as many as sleep there leaves none of them. -/
theorem addr_ne_of_mem_wakeFirst {x : Sleeper ι θ ω} : ∀ {n : Nat} {l : List (Sleeper ι θ ω)},
    (l.filter fun y => y.addr = i).length ≤ n → x ∈ wakeFirst i n l → x.addr ≠ i
  | 0, l, hn, hx => by
    simp only [wakeFirst] at hx
    intro hi
    have hnil := List.length_eq_zero_iff.mp (Nat.le_zero.mp hn)
    have hmem : x ∈ l.filter fun y => y.addr = i := List.mem_filter.mpr ⟨hx, decide_eq_true hi⟩
    rw [hnil] at hmem
    cases hmem
  | _ + 1, [], _, hx => by cases hx
  | n + 1, y :: l, hn, hx => by
    simp only [wakeFirst] at hx
    by_cases hy : y.addr = i
    · simp only [List.filter_cons, hy, decide_true, if_true, List.length_cons] at hn
      rw [if_pos hy] at hx
      exact addr_ne_of_mem_wakeFirst (Nat.le_of_succ_le_succ hn) hx
    · simp only [List.filter_cons, hy, decide_false, Bool.false_eq_true, if_false] at hn
      rw [if_neg hy] at hx
      rcases List.mem_cons.mp hx with rfl | hx
      · exact hy
      · exact addr_ne_of_mem_wakeFirst hn hx

theorem Covered.store (h : f.Covered owed) : (f.store i v).Covered (insert i owed) := by
  intro x hx
  by_cases hi : x.addr = i
  · exact .inr (.inl hi)
  · rw [store_word_ne hi]
    exact (h x hx).imp_right .inr

/-- A store that nobody sleeps through owes no notification. -/
theorem Covered.store_unseen (h : f.Covered owed) (hno : ∀ x ∈ f.sleepers, x.addr ≠ i) :
    (f.store i v).Covered owed := by
  intro x hx
  rw [store_word_ne (hno x hx)]
  exact h x hx

theorem Covered.notify (h : f.Covered owed) (hn : (f.sleepers.filter fun y => y.addr = i).length ≤ n) :
    (f.notify i n).Covered (owed \ {i}) := by
  intro x hx
  have hi : x.addr ≠ i := addr_ne_of_mem_wakeFirst hn hx
  exact (h x ((wakeFirst_sublist i n _).subset hx)).imp_right fun ho => ⟨ho, hi⟩

end

@[simp] theorem wait_word [DecidableEq ω] : (f.wait t i v).word = f.word := by
  simp only [wait]
  split <;> rfl

/-- Who sleeps after a `wait` slept before it, or is its caller, who saw the word as it is. -/
theorem of_mem_wait [DecidableEq ω] {x : Sleeper ι θ ω} (hx : x ∈ (f.wait t i v).sleepers) :
    x ∈ f.sleepers ∨ x = ⟨t, i, v⟩ ∧ f.word i = v := by
  simp only [wait] at hx
  split at hx
  · next hv => exact (List.mem_append.mp hx).imp_right fun hx => ⟨List.mem_singleton.mp hx, hv⟩
  · exact .inl hx

theorem asleep_wait [DecidableEq ω] : (f.wait t i v).Asleep u ↔ f.Asleep u ∨ u = t ∧ f.word i = v := by
  simp only [wait, Asleep]
  split
  · next hv =>
    simp only [List.mem_append, List.mem_singleton, hv, and_true]
    constructor
    · rintro ⟨x, hx | rfl, rfl⟩
      · exact .inl ⟨x, hx, rfl⟩
      · exact .inr rfl
    · rintro (⟨x, hx, rfl⟩ | rfl)
      · exact ⟨x, .inl hx, rfl⟩
      · exact ⟨_, .inr rfl, rfl⟩
  · next hv => simp only [hv, and_false, or_false]

theorem Covered.wait [DecidableEq ω] (h : f.Covered owed) : (f.wait t i v).Covered owed := by
  intro x hx
  rw [wait_word]
  rcases of_mem_wait hx with hx | ⟨rfl, hv⟩
  · exact h x hx
  · exact .inl hv

theorem Covered.timeout [DecidableEq θ] (h : f.Covered owed) : (f.timeout t).Covered owed :=
  fun x hx => h x (List.mem_filter.mp hx).1

/-- Each thread sleeps once and on a word of its own, which no other thread sleeps on. -/
structure OneEach (f : Futex ι θ ω) (home : θ → ι) : Prop where
  once : (f.sleepers.map Sleeper.thread).Nodup
  own : ∀ x ∈ f.sleepers, x.addr = home x.thread

/-- So one wake-up is enough on every word. -/
theorem OneEach.filter_length [DecidableEq ι] {home : θ → ι} (h : f.OneEach home) (hinj : Function.Injective home)
    (i : ι) : (f.sleepers.filter fun x => x.addr = i).length ≤ 1 := by
  have hdup : ((f.sleepers.filter fun x => x.addr = i).map Sleeper.thread).Nodup :=
    h.once.sublist ((List.filter_sublist ..).map _)
  have hown : ∀ x ∈ f.sleepers.filter fun x => x.addr = i, home x.thread = i := by
    intro x hx
    rw [← h.own x (List.mem_filter.mp hx).1]
    simpa using (List.mem_filter.mp hx).2
  generalize f.sleepers.filter (fun x => x.addr = i) = l at hdup hown
  match l, hdup, hown with
  | [], _, _ => simp
  | [x], _, _ => simp
  | x :: y :: l, hdup, hown =>
    have heq : x.thread = y.thread := hinj ((hown x (by simp)).trans (hown y (by simp)).symm)
    simp [heq] at hdup

theorem OneEach.store [DecidableEq ι] {home : θ → ι} (h : f.OneEach home) : (f.store i v).OneEach home :=
  ⟨h.once, h.own⟩

theorem OneEach.wait [DecidableEq ω] {home : θ → ι} (h : f.OneEach home) (ht : ¬ f.Asleep t) :
    (f.wait t (home t) v).OneEach home := by
  simp only [Futex.wait]
  split
  · refine ⟨?_, fun x hx => ?_⟩
    · simp only [List.map_append, List.map_cons, List.map_nil, List.nodup_append, List.mem_map]
      refine ⟨h.once, by simp, ?_⟩
      rintro u ⟨x, hx, rfl⟩ u' hu' heq
      rw [List.mem_singleton.mp hu'] at heq
      exact ht ⟨x, hx, heq⟩
    · rcases List.mem_append.mp hx with hx | hx
      · exact h.own x hx
      · rw [List.mem_singleton.mp hx]
  · exact h

theorem OneEach.sublist {home : θ → ι} {g : Futex ι θ ω} (h : f.OneEach home) (hs : g.sleepers.Sublist f.sleepers) :
    g.OneEach home :=
  ⟨h.once.sublist (hs.map _), fun x hx => h.own x (hs.subset hx)⟩

theorem Covered.mono {owed' : Set ι} (h : f.Covered owed) (hs : owed ⊆ owed') : f.Covered owed' :=
  fun x hx => (h x hx).imp_right (hs ·)

end

end Futex

end Sqlol

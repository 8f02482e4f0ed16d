/-
Reader/writer locks over arbitrary owners, and banks of independent ones
taken over ranges, all or nothing.

A lock carries its own consistency: a value with a reader beside another
owner's exclusive hold cannot be built. An owner may hold both modes at once
(it asked for shared while exclusive), and asking for exclusive replaces its
own shared hold. Noncomputable on purpose: this is what a lock table is for,
not how one is kept.
-/
import Mathlib.Data.Set.Insert

namespace Sqlol

/-- How a slot is asked for. -/
inductive LockMode where
  | shared
  | exclusive
  deriving DecidableEq

/-- The owners that hold the lock shared, and the one that holds it exclusively. -/
@[ext] structure RwLock (α : Type*) where
  readers : Set α
  writer : Option α
  alone : ∀ c, writer = some c → readers ⊆ {c}

namespace RwLock

variable {α : Type*}

/-- Nobody has it. -/
def free : RwLock α := ⟨∅, none, by simp⟩

/-- No other owner is in the way: of a shared request, an exclusive hold; of
an exclusive request, any hold. -/
def Admits (l : RwLock α) : LockMode → α → Prop
  | .shared, c => ∀ d, d ≠ c → l.writer ≠ some d
  | .exclusive, c => ∀ d, d ≠ c → l.writer ≠ some d ∧ d ∉ l.readers

/-- Take the lock where it admits the owner. -/
def acquire (l : RwLock α) : (m : LockMode) → (c : α) → l.Admits m c → RwLock α
  | .shared, c, h =>
    { readers := insert c l.readers
      writer := l.writer
      alone := by
        intro d hd
        have hdc : d = c := by
          by_contra hne
          exact h d hne hd
        subst hdc
        exact Set.insert_subset rfl (l.alone d hd) }
  | .exclusive, c, h =>
    { readers := l.readers \ {c}
      writer := some c
      alone := by
        intro d _ e he
        by_contra
        exact (h e (fun hec => he.2 hec)).2 he.1 }

open Classical in
/-- Give up whatever the owner holds. -/
noncomputable def release (l : RwLock α) (c : α) : RwLock α where
  readers := l.readers \ {c}
  writer := if l.writer = some c then none else l.writer
  alone := by
    intro d hd
    split at hd
    · cases hd
    · exact fun e he => l.alone d hd he.1

end RwLock

/-- Independent locks, one per index. -/
abbrev Bank (ι α : Type*) := ι → RwLock α

namespace Bank

variable {ι α : Type*}

/-- Every lock of the range admits the owner. -/
def Admits (b : Bank ι α) (m : LockMode) (S : Set ι) (c : α) : Prop := ∀ i ∈ S, (b i).Admits m c

open Classical in
/-- Ask for every lock of a range: all of them, or none and the answer false. -/
noncomputable def request (b : Bank ι α) (m : LockMode) (S : Set ι) (c : α) : Bank ι α × Bool :=
  if h : b.Admits m S c then
    (fun i => if hi : i ∈ S then (b i).acquire m c (h i hi) else b i, true)
  else (b, false)

open Classical in
/-- The slots of `S` are given back by `c`. -/
noncomputable def release (b : Bank ι α) (S : Set ι) (c : α) : Bank ι α :=
  fun i => if i ∈ S then (b i).release c else b i

theorem request_of_admits {b : Bank ι α} {m : LockMode} {S : Set ι} {c : α} (h : b.Admits m S c) :
    (b.request m S c).2 = true ∧
      ∀ i, (∀ hi : i ∈ S, (b.request m S c).1 i = (b i).acquire m c (h i hi)) ∧
        (i ∉ S → (b.request m S c).1 i = b i) := by
  simp only [request, dif_pos h, true_and]
  exact fun i => ⟨fun hi => dif_pos hi, fun hi => dif_neg hi⟩

theorem request_of_not_admits {b : Bank ι α} {m : LockMode} {S : Set ι} {c : α} (h : ¬ b.Admits m S c) :
    b.request m S c = (b, false) := by
  simp only [request, dif_neg h]

end Bank

end Sqlol

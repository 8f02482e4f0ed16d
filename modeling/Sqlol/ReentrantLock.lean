/-
A reentrant mutual-exclusion lock: the thread that has it may take it again,
and it is free when every hold has been given up.

`Counts l h` ties the lock to what its users know, the number of holds of each
thread. The two operations keep it, and two threads with holds are one.
-/
import Mathlib.Logic.Function.Basic
import Mathlib.Tactic.Common

namespace Sqlol

/-- A lock that its owner may take again. -/
structure ReentrantLock (α : Type*) where
  owner : Option α := none
  holds : Nat := 0

namespace ReentrantLock

variable {α : Type*}

/-- None while another thread has the lock. -/
def acquire [DecidableEq α] (l : ReentrantLock α) (t : α) : Option (ReentrantLock α) :=
  match l.owner with
  | none => some { owner := some t, holds := 1 }
  | some u => if u = t then some { l with holds := l.holds + 1 } else none

/-- Give up one hold of the owner. -/
def release (l : ReentrantLock α) : ReentrantLock α :=
  if l.holds ≤ 1 then {} else { l with holds := l.holds - 1 }

/-- `h t` is the number of holds of the thread `t`. -/
structure Counts (l : ReentrantLock α) (h : α → Nat) : Prop where
  owner : ∀ t, h t ≠ 0 → l.owner = some t
  holds : ∀ t, l.owner = some t → l.holds = h t ∧ h t ≠ 0

theorem counts_free : Counts ({} : ReentrantLock α) fun _ => 0 where
  owner _ h := absurd rfl h
  holds _ h := by cases h

variable {l l' : ReentrantLock α} {h : α → Nat} {t : α}

theorem Counts.eq_of_holds (hc : Counts l h) {u : α} (ht : h t ≠ 0) (hu : h u ≠ 0) : t = u :=
  Option.some.inj ((hc.owner t ht).symm.trans (hc.owner u hu))

variable [DecidableEq α]

theorem Counts.acquire (hc : Counts l h) (ha : l.acquire t = some l') :
    Counts l' (Function.update h t (h t + 1)) := by
  simp only [ReentrantLock.acquire] at ha
  split at ha
  · next hfree =>
    cases ha
    have hzero : ∀ u, h u = 0 := fun u => by
      by_contra hu
      rw [hc.owner u hu] at hfree
      cases hfree
    refine ⟨fun u hu => ?_, fun u hu => ?_⟩
    · by_cases hut : u = t
      · rw [hut]
      · rw [Function.update_of_ne hut] at hu
        exact absurd (hzero u) hu
    · cases hu
      rw [Function.update_self, hzero]
      exact ⟨rfl, by omega⟩
  · next u hown =>
    split at ha <;> cases ha
    next hut =>
    subst hut
    refine ⟨fun v hv => ?_, fun v hv => ?_⟩
    · by_cases hvu : v = u
      · rw [hvu]; exact hown
      · rw [Function.update_of_ne hvu] at hv
        exact hc.owner v hv
    · rw [hown] at hv
      cases hv
      rw [Function.update_self, (hc.holds u hown).1]
      exact ⟨rfl, by omega⟩

theorem Counts.release (hc : Counts l h) (ht : h t ≠ 0) : Counts l.release (Function.update h t (h t - 1)) := by
  have hown := hc.owner t ht
  have hholds := (hc.holds t hown).1
  have hother : ∀ u, u ≠ t → h u = 0 := fun u hut => by
    by_contra hu
    exact hut (hc.eq_of_holds hu ht)
  simp only [ReentrantLock.release]
  split
  · refine ⟨fun u hu => ?_, fun u hu => by cases hu⟩
    by_cases hut : u = t
    · subst hut
      rw [Function.update_self] at hu
      omega
    · rw [Function.update_of_ne hut] at hu
      exact absurd (hother u hut) hu
  · refine ⟨fun u hu => ?_, fun u hu => ?_⟩
    · by_cases hut : u = t
      · rw [hut]; exact hown
      · rw [Function.update_of_ne hut] at hu
        exact absurd (hother u hut) hu
    · have hut : u = t := Option.some.inj ((show l.owner = some u from hu).symm.trans hown)
      subst hut
      rw [Function.update_self, ← hholds]
      exact ⟨rfl, by omega⟩

end ReentrantLock

end Sqlol

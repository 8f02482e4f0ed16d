/-
Finite maps with the operations of a hash map that Mathlib's `AList` does
not have: a test over all entries, removal by a predicate on keys, and
get-or-put. Each comes with the one lemma that says what it does to `lookup`,
which is all that is ever observed of a table.
-/
import Mathlib.Data.List.AList
import Mathlib.Tactic.Common

namespace Sqlol

/-- A finite map: distinct keys, one value each. -/
abbrev Table (α β : Type*) := AList (fun _ : α => β)

namespace Table

variable {α β : Type*}

/-- Some entry satisfies `p`. -/
def any (t : Table α β) (p : α → β → Bool) : Bool := t.entries.any fun e => p e.1 e.2

/-- Drop every entry whose key satisfies `p`. -/
def removeIf (t : Table α β) (p : α → Bool) : Table α β :=
  ⟨t.entries.filter fun e => !p e.1, List.NodupKeys.sublist List.filter_sublist t.nodupKeys⟩

variable [DecidableEq α]

/-- The value at `a`, putting `d` there first when there is none. -/
def getOrPut (t : Table α β) (a : α) (d : β) : Table α β × β :=
  match t.lookup a with
  | some b => (t, b)
  | none => (t.insert a d, d)

theorem any_iff {t : Table α β} {p : α → β → Bool} :
    t.any p = true ↔ ∃ a b, t.lookup a = some b ∧ p a b = true := by
  simp only [any, List.any_eq_true, Sigma.exists]
  refine exists_congr fun a => exists_congr fun b => and_congr_left fun _ => ?_
  exact AList.mem_lookup_iff.symm

theorem lookup_eq_some {t : Table α β} {a : α} {b : β} :
    t.lookup a = some b ↔ (⟨a, b⟩ : Sigma fun _ : α => β) ∈ t.entries :=
  AList.mem_lookup_iff

@[simp] theorem lookup_removeIf (t : Table α β) (p : α → Bool) (a : α) :
    (t.removeIf p).lookup a = if p a then none else t.lookup a := by
  ext b
  rw [lookup_eq_some]
  simp only [removeIf, List.mem_filter, Bool.not_eq_true', ← lookup_eq_some]
  split <;> simp_all

theorem lookup_insert (t : Table α β) (a a' : α) (b : β) :
    (t.insert a b).lookup a' = if a' = a then some b else t.lookup a' := by
  split
  · next h => subst h; exact AList.lookup_insert t
  · next h => exact AList.lookup_insert_ne h

/-- What is found after an insertion is the new entry or an old one. -/
theorem of_lookup_insert {t : Table α β} {a a' : α} {b b' : β} (h : (t.insert a b).lookup a' = some b') :
    (a' = a ∧ b' = b) ∨ t.lookup a' = some b' := by
  rw [lookup_insert] at h
  split at h
  · next ha => exact .inl ⟨ha, (Option.some.inj h).symm⟩
  · exact .inr h

theorem lookup_erase (t : Table α β) (a a' : α) :
    (t.erase a).lookup a' = if a' = a then none else t.lookup a' := by
  split
  · next h => subst h; exact AList.lookup_erase a' t
  · next h => exact AList.lookup_erase_ne h

@[simp] theorem getOrPut_snd (t : Table α β) (a : α) (d : β) :
    (t.getOrPut a d).2 = (t.lookup a).getD d := by
  unfold getOrPut
  split <;> simp_all

theorem lookup_getOrPut_ne (t : Table α β) {a a' : α} (d : β) (h : a' ≠ a) :
    (t.getOrPut a d).1.lookup a' = t.lookup a' := by
  unfold getOrPut
  split
  · rfl
  · exact AList.lookup_insert_ne h

theorem getOrPut_fst_of_some {t : Table α β} {a : α} {b d : β} (h : t.lookup a = some b) :
    (t.getOrPut a d).1 = t := by
  simp [getOrPut, h]

end Table

end Sqlol

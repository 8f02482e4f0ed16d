/-
Nested savepoints of an open transaction. `Work` has the writes so far and the marks set
among them, the innermost first. A mark knows how many writes were there; going back to
it cuts the writes at that place and keeps the mark, releasing it keeps the writes.
Names may be used again, and the innermost mark of a name is the one meant.

`Since w name w'`: `w'` is what has become of `w` since a mark `name` was set on it, which
still stands. The operations between keep it, and `Since.back` is what it is good for: when
no mark of the name has been set inside it, going back to `name` gives `w` with its mark.
-/
import Mathlib.Data.List.TakeWhile
import Mathlib.Data.List.Infix

namespace Sqlol

namespace Savepoints

/-- The writes of a transaction, and the marks among them. -/
structure Work (ν ω : Type) where
  writes : List ω := []
  marks : List (ν × Nat) := []
  deriving DecidableEq

namespace Work

variable {ν ω : Type}

/-- One more write. -/
def write (w : Work ν ω) (x : ω) : Work ν ω := { w with writes := w.writes ++ [x] }

/-- A mark behind the last write. -/
def set (w : Work ν ω) (name : ν) : Work ν ω := { w with marks := (name, w.writes.length) :: w.marks }

/-- The names of the marks, the innermost first. -/
def names (w : Work ν ω) : List ν := w.marks.map (·.1)

/-- The names set on `w` in `w'`. -/
def inner (w w' : Work ν ω) : List ν := w'.names.take (w'.marks.length - (w.marks.length + 1))

/-- The mark still stands, and the marks inside it are behind the writes of `w`. -/
structure Since (w : Work ν ω) (name : ν) (w' : Work ν ω) : Prop where
  marks : ∃ ms, w'.marks = ms ++ (w.set name).marks ∧ ∀ m ∈ ms, w.writes.length ≤ m.2
  writes : w.writes <+: w'.writes

variable {w w' w'' : Work ν ω} {name other : ν}

theorem since_set (w : Work ν ω) (name : ν) : Since w name (w.set name) := ⟨⟨[], rfl, nofun⟩, List.prefix_rfl⟩

theorem Since.write (h : Since w name w') (x : ω) : Since w name (w'.write x) :=
  ⟨h.marks, h.writes.trans (List.prefix_append _ _)⟩

theorem Since.set (h : Since w name w') (other : ν) : Since w name (w'.set other) := by
  obtain ⟨ms, hms, hall⟩ := h.marks
  refine ⟨⟨(other, w'.writes.length) :: ms, congrArg _ hms, fun m hm => ?_⟩, h.writes⟩
  rcases List.mem_cons.mp hm with rfl | hm
  · exact h.writes.length_le
  · exact hall m hm

theorem Since.inner (h : Since w name w') :
    ∃ ms, w'.marks = ms ++ (w.set name).marks ∧ (∀ m ∈ ms, w.writes.length ≤ m.2) ∧ w.inner w' = ms.map (·.1) := by
  obtain ⟨ms, hms, hall⟩ := h.marks
  refine ⟨ms, hms, hall, ?_⟩
  have hlen : w'.marks.length - (w.marks.length + 1) = (ms.map (·.1)).length := by
    rw [hms, List.length_append, List.length_map, Work.set, List.length_cons]
    omega
  rw [Work.inner, hlen, names, hms, List.map_append, List.take_left]

theorem inner_write (w : Work ν ω) (name : ν) (x : ω) : w.inner ((w.set name).write x) = [] := by
  simp [inner, Work.set, Work.write]

section
variable [DecidableEq ν]

/-- The innermost mark of the name, and those outside it. -/
def find (w : Work ν ω) (name : ν) : List (ν × Nat) := w.marks.dropWhile (·.1 ≠ name)

/-- The mark goes, and those inside it; the writes stay. -/
def release (w : Work ν ω) (name : ν) : Option (Work ν ω) := match w.find name with
  | [] => none
  | _ :: outer => some { w with marks := outer }

/-- The writes behind the mark go, and the marks inside it. -/
def rollbackTo (w : Work ν ω) (name : ν) : Option (Work ν ω) := match w.find name with
  | [] => none
  | m :: outer => some { writes := w.writes.take m.2, marks := m :: outer }

theorem find_eq_nil : w.find name = [] ↔ name ∉ w.names := by
  simp only [find, List.dropWhile_eq_nil_iff, names, List.mem_map, not_exists, not_and, ne_eq, decide_eq_true_eq]

/-- A mark is looked for from the inside. -/
theorem find_append {ms outer : List (ν × Nat)} (hm : w.marks = ms ++ outer) (hname : name ∈ ms.map (·.1)) :
    ∃ m ∈ ms, ∃ rest, w.find name = m :: rest ++ outer ∧ ∀ k ∈ rest, k ∈ ms := by
  induction ms generalizing w with
  | nil => cases hname
  | cons m ms ih =>
    by_cases heq : m.1 = name
    · refine ⟨m, List.mem_cons_self, ms, ?_, fun _ => List.mem_cons_of_mem _⟩
      rw [find, hm, List.cons_append, List.dropWhile_cons_of_neg (by simpa using heq)]
    · have hrest : name ∈ ms.map (·.1) := by
        rcases List.mem_cons.mp hname with h | h
        · exact absurd h.symm heq
        · exact h
      obtain ⟨k, hk, rest, hfind, hsub⟩ := ih (w := { w with marks := ms ++ outer }) rfl hrest
      refine ⟨k, List.mem_cons_of_mem _ hk, rest, ?_, fun m hm => List.mem_cons_of_mem _ (hsub m hm)⟩
      rw [find, hm, List.cons_append, List.dropWhile_cons_of_pos (by simpa using heq)]
      exact hfind

/-- A mark set since may go. -/
theorem Since.release (h : Since w name w') (hother : other ∈ w.inner w') (hr : w'.release other = some w'') :
    Since w name w'' := by
  obtain ⟨ms, hms, hall, hinner⟩ := h.inner
  obtain ⟨m, -, rest, hfind, hsub⟩ := find_append hms (hinner ▸ hother)
  rw [Work.release, hfind] at hr
  cases hr
  exact ⟨⟨rest, rfl, fun m hm => hall m (hsub m hm)⟩, h.writes⟩

/-- Going back to a mark set since does not reach behind `w`. -/
theorem Since.rollbackTo (h : Since w name w') (hother : other ∈ w.inner w') (hr : w'.rollbackTo other = some w'') :
    Since w name w'' := by
  obtain ⟨ms, hms, hall, hinner⟩ := h.inner
  obtain ⟨m, hm, rest, hfind, hsub⟩ := find_append hms (hinner ▸ hother)
  rw [Work.rollbackTo, hfind] at hr
  cases hr
  refine ⟨⟨m :: rest, rfl, fun k hk => ?_⟩, ?_⟩
  · rcases List.mem_cons.mp hk with rfl | hk
    · exact hall _ hm
    · exact hall k (hsub k hk)
  · obtain ⟨more, hmore⟩ := h.writes
    rw [← hmore]
    show w.writes <+: (w.writes ++ more).take m.2
    rw [List.take_append, List.take_of_length_le (hall m hm)]
    exact List.prefix_append _ _

theorem Since.back (h : Since w name w') (hname : name ∉ w.inner w') : w'.rollbackTo name = some (w.set name) := by
  obtain ⟨ms, hms, -, hinner⟩ := h.inner
  obtain ⟨more, hmore⟩ := h.writes
  rw [hinner] at hname
  have hother : ∀ m ∈ ms, decide (m.1 ≠ name) = true := fun m hm =>
    decide_eq_true fun heq => hname (List.mem_map.mpr ⟨m, hm, heq⟩)
  have hfind : w'.find name = (w.set name).marks := by
    rw [find, hms, List.dropWhile_append_of_pos hother]
    exact List.dropWhile_cons_of_neg (by simp)
  rw [Work.rollbackTo, hfind]
  show some _ = some _
  rw [← hmore, List.take_left]
  rfl

end

end Work

end Savepoints

end Sqlol

/-
The 32-bit signed `Int` of the source, as integers: a sum or a difference
that leaves the range wraps around.
-/
import Mathlib.Tactic.Common

namespace Sqlol

/-- The 32-bit value of a sum. -/
def i32 (x : Int) : Int := x.bmod 4294967296

theorem i32_bounds (x : Int) : -2147483648 ≤ i32 x ∧ i32 x < 2147483648 := by
  simp only [i32, Int.bmod_def]
  omega

theorem i32_of_bounds {x : Int} (hlo : -2147483648 ≤ x) (hhi : x < 2147483648) : i32 x = x := by
  simp only [i32, Int.bmod_def]
  omega

/-- A sum beyond the range comes out below it. -/
theorem i32_of_wraps {x : Int} (hlo : 2147483648 ≤ x) (hhi : x < 4294967296) : i32 x = x - 4294967296 := by
  simp only [i32, Int.bmod_def]
  omega

end Sqlol

/-
The arena that hands out wal-index regions (`ShmArena`): a bump cursor over
one block of the shared linear memory, and a table from `"name#region"` to
pointers. `map` and `dropFile` hold the arena's lock for their whole body, so
each is one step.

The linear memory is the runtime's own (`Memory` of the wasm engine), so it
is a parameter: `fill`, which may throw, and the byte at an address, which is
only there to say what `fill` wrote. Addresses and sizes are 32-bit `Int`s of
the source; every sum wraps (`i32`).
-/
import Sqlol.Int32
import Sqlol.Table
import Std.Data.String.ToInt
import Mathlib.Data.List.Infix
import Mathlib.Algebra.Order.Ring.Int

namespace Sqlol

/-- `(szRegion + 15) and 0xF.inv()`: the low four bits of the sum cleared. -/
def roundUp16 (szRegion : Int) : Int := i32 (szRegion + 15) / 16 * 16

/-- `ARENA_BYTES`, the size of the block `malloc` is asked for. -/
def ARENA_BYTES : Int := 8 * 1024 * 1024

theorem roundUp16_of_le {sz : Int} (h0 : 0 < sz) (h : sz ≤ ARENA_BYTES) :
    sz ≤ roundUp16 sz ∧ roundUp16 sz < sz + 16 ∧ roundUp16 sz % 16 = 0 := by
  simp only [ARENA_BYTES] at h
  rw [roundUp16, i32_of_bounds (by omega) (by omega)]
  omega

/-- The linear memory, as far as the arena sees it. -/
structure Memory (M : Type) where
  byteAt : M → Int → UInt8
  /-- `fill(value, fromIndex, toIndex)`; `none` when it throws. -/
  fill : M → UInt8 → Int → Int → Option M

/-- What the engine's `fill` does inside an allocated block: it does not
throw, and it writes the value to the bytes from `i` up to `j` and no others. -/
def Memory.FillsWithin {M : Type} (memory : Memory M) (lo hi : Int) : Prop :=
  ∀ m v i j, lo ≤ i → i ≤ j → j ≤ hi → ∃ m', memory.fill m v i j = some m' ∧
    ∀ a, memory.byteAt m' a = if i ≤ a ∧ a < j then v else memory.byteAt m a

/-- `"$name#$iRegion"`. -/
def regionKey (name : String) (iRegion : Int) : String := name ++ "#" ++ iRegion.repr

/-- `String.startsWith`. -/
def startsWith (s pre : String) : Bool := pre.toList.isPrefixOf s.toList

/-- The arena in the guest's memory: where it begins, what is used of it, and the address of each region. -/
structure ShmArena (M : Type) where
  base : Int
  cursor : Int := 0
  regions : Table String Int := ∅
  mem : M

namespace ShmArena

variable {M : Type}

/-- The pointer, or `none` when `fill` threw; the cursor has moved by then. -/
def map (memory : Memory M) (a : ShmArena M) (name : String) (iRegion szRegion bExtend : Int) :
    ShmArena M × Option Int :=
  let key := regionKey name iRegion
  match a.regions.lookup key with
  | some ptr => (a, some ptr)
  | none =>
    if bExtend = 0 then (a, some 0)
    else
      let ptr := i32 (a.base + a.cursor)
      let a := { a with cursor := i32 (a.cursor + roundUp16 szRegion) }
      match memory.fill a.mem 0 ptr (i32 (ptr + szRegion)) with
      | none => (a, none)
      | some mem => ({ a with mem, regions := a.regions.insert key ptr }, some ptr)

/-- Forget the regions whose key starts with `"$name#"`. -/
def dropFile (a : ShmArena M) (name : String) : ShmArena M :=
  { a with regions := a.regions.removeIf fun key => startsWith key (name ++ "#") }

/-- Everything a `map` call can do. -/
theorem map_cases (memory : Memory M) (a : ShmArena M) (name : String) (iRegion szRegion bExtend : Int) :
    (∃ ptr, a.regions.lookup (regionKey name iRegion) = some ptr ∧
      a.map memory name iRegion szRegion bExtend = (a, some ptr)) ∨
    (a.regions.lookup (regionKey name iRegion) = none ∧ bExtend = 0 ∧
      a.map memory name iRegion szRegion bExtend = (a, some 0)) ∨
    (a.regions.lookup (regionKey name iRegion) = none ∧ bExtend ≠ 0 ∧
      memory.fill a.mem 0 (i32 (a.base + a.cursor)) (i32 (i32 (a.base + a.cursor) + szRegion)) = none ∧
      a.map memory name iRegion szRegion bExtend =
        ({ a with cursor := i32 (a.cursor + roundUp16 szRegion) }, none)) ∨
    (∃ mem, a.regions.lookup (regionKey name iRegion) = none ∧ bExtend ≠ 0 ∧
      memory.fill a.mem 0 (i32 (a.base + a.cursor)) (i32 (i32 (a.base + a.cursor) + szRegion)) = some mem ∧
      a.map memory name iRegion szRegion bExtend =
        ({ base := a.base, cursor := i32 (a.cursor + roundUp16 szRegion), mem,
           regions := a.regions.insert (regionKey name iRegion) (i32 (a.base + a.cursor)) },
          some (i32 (a.base + a.cursor)))) := by
  simp only [map]
  split
  · next ptr h => exact .inl ⟨ptr, h, rfl⟩
  · next h =>
    split
    · next hx => exact .inr (.inl ⟨h, hx, rfl⟩)
    · next hx =>
      split
      · next hf => exact .inr (.inr (.inl ⟨h, hx, hf, rfl⟩))
      · next mem hf => exact .inr (.inr (.inr ⟨mem, h, hx, hf, rfl⟩))

/-! ## Keys -/

theorem hash_not_mem_repr (r : Int) : '#' ∉ r.repr.toList := by
  have digits : ∀ n : Nat, '#' ∉ n.repr.toList := fun n h => by
    rw [Nat.toList_repr] at h
    exact absurd (Nat.isDigit_of_mem_toDigits (by omega) (by omega) h) (by decide)
  cases r with
  | ofNat n => exact digits n
  | negSucc n =>
    rw [Int.repr, String.toList_append]
    simp only [List.mem_append, not_or]
    exact ⟨by decide, digits _⟩

/-- A key starts with a name and `#` when it is that name's, or when the
name and `#` already start its own name. -/
theorem isPrefix_key_iff {n m d : List Char} (hd : '#' ∉ d) :
    n ++ ['#'] <+: m ++ '#' :: d ↔ n = m ∨ n ++ ['#'] <+: m := by
  constructor
  · intro h
    by_cases hlen : n.length + 1 ≤ m.length
    · exact .inr (List.prefix_of_prefix_length_le h (List.prefix_append m _) (by simpa using hlen))
    · -- `m` is no longer than `n`, so it starts `n`, and the rest of `n` would put a `#` into `d`.
      have hm : m <+: n := by
        have hmn : m <+: n ++ ['#'] :=
          List.prefix_of_prefix_length_le (List.prefix_append m _) h (by simp; omega)
        exact List.prefix_of_prefix_length_le hmn (List.prefix_append n _) (by omega)
      obtain ⟨e, rfl⟩ := hm
      rw [List.append_assoc, List.prefix_append_right_inj] at h
      cases e with
      | nil => exact .inl (by simp)
      | cons x e =>
        obtain ⟨t, ht⟩ := h
        simp only [List.cons_append, List.append_assoc, List.cons.injEq] at ht
        exact absurd (ht.2 ▸ (by simp)) hd
  · rintro (rfl | h)
    · exact (List.prefix_append_right_inj n).mpr ⟨d, rfl⟩
    · exact h.trans (List.prefix_append m _)

theorem startsWith_regionKey (n m : String) (r : Int) :
    startsWith (regionKey m r) (n ++ "#") = true ↔ m = n ∨ startsWith m (n ++ "#") = true := by
  have hsharp : "#".toList = ['#'] := by decide
  simp only [startsWith, regionKey, List.isPrefixOf_iff_prefix, String.toList_append, hsharp,
    List.append_assoc, List.singleton_append]
  rw [isPrefix_key_iff (hash_not_mem_repr r), String.toList_inj, eq_comm]

/-- What `dropFile` forgets. -/
theorem lookup_dropFile (a : ShmArena M) (n m : String) (r : Int) :
    (a.dropFile n).regions.lookup (regionKey m r) =
      if m = n ∨ startsWith m (n ++ "#") = true then none else a.regions.lookup (regionKey m r) := by
  simp only [dropFile, Table.lookup_removeIf, startsWith_regionKey]

end ShmArena

end Sqlol

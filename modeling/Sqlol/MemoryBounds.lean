/-
The bounds checks of `StatelessBulkMemory`, in 32-bit arithmetic.

`checkBounds` adds two `Int`s. Where the sum wraps around it is negative, which no
limit is below, and the check passes. `write` then goes on with a range that ends
beyond the memory or the data, and the pages before that end have been written
when it throws. `checks_exact_iff` says that these are the only wrong answers, and
that nothing else leaves a write half done; `write_reaches` says how far a write
comes in any case.
-/
import Sqlol.BulkMemory

namespace Sqlol

namespace BulkMemory

/-! ## What is claimed -/

/-- The `checkBounds` calls of `write`. -/
def checkWrite (addr : Int) (data : List UInt8) (offset size : Int) : Prog Memory Unit := do
  Prog.throwIf (outOfBounds offset size data.length)
  Prog.throwIf (outOfBounds addr size (← Prog.get).limit)

/-- The `checkBounds` call of `readBytes`. -/
def checkRead (addr len : Int) : Prog Memory Unit := do
  Prog.throwIf (outOfBounds addr len (← Prog.get).limit)

theorem writeRange_eq (addr : Int) (data : List UInt8) (offset size : Int) :
    writeRange addr data offset size =
      checkWrite addr data offset size >>= fun _ => writeLoop data size.toNat addr offset size := by
  rw [checkWrite, Prog.bind_assoc]
  rfl

/-- The range from `x` on, with no bound on integers. -/
def InRange (x n limit : Int) : Prop := 0 ≤ x ∧ 0 ≤ n ∧ x + n ≤ limit

instance (x n limit : Int) : Decidable (InRange x n limit) := inferInstanceAs (Decidable (_ ∧ _ ∧ _))

/-- The checks are exact, and a write that throws has written nothing. -/
structure WriteChecked (m : Memory) (addr : Int) (data : List UInt8) (offset size : Int) : Prop where
  exact : (checkWrite addr data offset size m).1 = some () ↔
    InRange offset size data.length ∧ InRange addr size m.size
  unchanged : (writeRange addr data offset size m).1 = none → (writeRange addr data offset size m).2 = m

/-- The check of a read is exact. -/
def ReadChecked (m : Memory) (addr len : Int) : Prop :=
  (checkRead addr len m).1 = some () ↔ InRange addr len m.size

/-- The sum does not fit into an `Int`. -/
def Wraps (x n limit : Int) : Prop := 0 ≤ x ∧ x ≤ limit ∧ 0 < n ∧ 2147483648 ≤ x + n

instance (x n limit : Int) : Decidable (Wraps x n limit) := inferInstanceAs (Decidable (_ ∧ _ ∧ _ ∧ _))

/-- One of the sums wraps around, and the other check does not stop it. -/
def WriteWraps (m : Memory) (addr : Int) (data : List UInt8) (offset size : Int) : Prop :=
  (Wraps offset size data.length ∧ (InRange addr size m.size ∨ Wraps addr size m.size)) ∨
    (InRange offset size data.length ∧ Wraps addr size m.size)

instance (m : Memory) (addr : Int) (data : List UInt8) (offset size : Int) :
    Decidable (WriteWraps m addr data offset size) := inferInstanceAs (Decidable ((_ ∧ (_ ∨ _)) ∨ (_ ∧ _)))

/-! ## The checks -/

/-- What `checkBounds` lets through. -/
theorem outOfBounds_eq_false_iff {x n limit : Int} (hx : x < 2147483648) (hn : n < 2147483648) :
    outOfBounds x n limit = false ↔ InRange x n limit ∨ Wraps x n limit := by
  have hfits : 0 ≤ x → 0 ≤ n → x + n < 2147483648 → i32 (x + n) = x + n := fun _ _ hsum =>
    i32_of_bounds (by omega) hsum
  have hwraps : 2147483648 ≤ x + n → i32 (x + n) = x + n - 4294967296 := fun hsum => i32_of_wraps hsum (by omega)
  simp only [outOfBounds, InRange, Wraps, Bool.or_eq_false_iff, Bool.and_eq_false_iff, decide_eq_false_iff_not]
  generalize i32 (x + n) = sum at hfits hwraps
  omega

theorem not_wraps_of_inRange {x n limit : Int} (hlimit : limit < 2147483648) (h : InRange x n limit) :
    ¬Wraps x n limit := by
  simp only [InRange, Wraps] at *
  omega

theorem checkRead_passes {m : Memory} {addr len : Int} :
    (checkRead addr len m).1 = some () ↔ outOfBounds addr len m.limit = false := by
  show (Prog.throwIf (outOfBounds addr len m.limit) m).1 = some () ↔ _
  cases outOfBounds addr len m.limit <;> simp [Prog.throwIf, Prog.throw, pure]

theorem checkWrite_passes {m : Memory} {addr offset size : Int} {data : List UInt8} :
    (checkWrite addr data offset size m).1 = some () ↔
      outOfBounds offset size data.length = false ∧ outOfBounds addr size m.limit = false := by
  unfold checkWrite
  cases hfrom : outOfBounds offset size data.length with
  | true => simp [Prog.throwIf, Prog.throw, bind]
  | false => exact checkRead_passes.trans (by simp)

/-- The checks leave the memory as it is. -/
theorem checkWrite_state {m : Memory} {addr offset size : Int} {data : List UInt8} :
    (checkWrite addr data offset size m).2 = m := by
  have hkeeps : Prog.Keeps (fun m' => m' = m) (checkWrite addr data offset size) :=
    (Prog.keeps_throwIf _).bind fun _ => Prog.keeps_get.bind fun _ => Prog.keeps_throwIf _
  exact hkeeps.state rfl

section
variable {m : Memory} {addr offset size : Int} {data : List UInt8}

theorem checkRead_iff {len : Int} (haddr : addr < 2147483648) (hlen : len < 2147483648) :
    (checkRead addr len m).1 = some () ↔ InRange addr len m.size ∨ Wraps addr len m.size := by
  rw [checkRead_passes, m.limit_eq, outOfBounds_eq_false_iff haddr hlen]

theorem checkWrite_iff (data : List UInt8) (haddr : addr < 2147483648) (hoffset : offset < 2147483648)
    (hsize : size < 2147483648) :
    (checkWrite addr data offset size m).1 = some () ↔
      (InRange offset size data.length ∨ Wraps offset size data.length) ∧
        (InRange addr size m.size ∨ Wraps addr size m.size) := by
  rw [checkWrite_passes, m.limit_eq, outOfBounds_eq_false_iff hoffset hsize, outOfBounds_eq_false_iff haddr hsize]

/-- A write whose ranges are in bounds does not throw, and one that is stopped does nothing. -/
theorem unchanged_of_exact (hdata : (data.length : Int) < 2147483648)
    (hexact : (checkWrite addr data offset size m).1 = some () →
      InRange offset size data.length ∧ InRange addr size m.size)
    (hthrown : (writeRange addr data offset size m).1 = none) : (writeRange addr data offset size m).2 = m := by
  rcases hcheck : checkWrite addr data offset size m with ⟨_ | u, m'⟩
  · have hstate : (checkWrite addr data offset size m).2 = m := checkWrite_state
    rw [hcheck] at hstate
    rw [writeRange_eq, Prog.bind_of_none hcheck]
    exact hstate
  · obtain ⟨hfrom, hto⟩ := hexact (by rw [hcheck])
    obtain ⟨m'', hwrite, -⟩ := writeRange_stores hto.1 hto.2.1 hto.2.2 hfrom.1 hfrom.2.2 hdata
    rw [hwrite] at hthrown
    cases hthrown

end

/-! ## How far a write goes -/

section
variable {m : Memory} {addr offset size : Int} {data : List UInt8}

theorem no_page (haddr : m.size ≤ addr) (hlt : addr < 2147483648) : m.pages[(pageIdx addr).toNat]? = none := by
  have hnonneg : 0 ≤ addr := by
    simp only [Memory.size, PAGE_SIZE] at haddr
    omega
  rw [pageIdx_eq hnonneg hlt]
  refine List.getElem?_eq_none ?_
  simp only [Memory.size, PAGE_SIZE] at haddr ⊢
  omega

/-- The loop puts every byte up to the end of the memory, and throws there when there are more. -/
theorem writeLoop_reaches {fuel : Nat} (hfuel : size ≤ fuel) (hsize : 0 ≤ size) (haddr : 0 ≤ addr)
    (hend : addr ≤ m.size)
    (hoffset : 0 ≤ offset) (hdata : offset + size ≤ data.length) (hint : offset + size < 2147483648) :
    Stored addr data offset (min size (m.size - addr)) m (writeLoop data fuel addr offset size m).2 := by
  induction fuel generalizing addr offset size m with
  | zero => exact ⟨rfl, fun a _ => (if_neg (by omega)).symm⟩
  | succ fuel ih =>
    unfold writeLoop
    split
    · next hpos =>
      have hm := m.size_lt
      by_cases hlast : addr = m.size
      · have hput : putChunk addr data offset (min size (PAGE_SIZE - pageOffset addr)) m = (none, m) := by
          simp only [putChunk, no_page hlast.ge (by omega)]
        rw [Prog.bind_of_none hput]
        exact ⟨rfl, fun a _ => (if_neg (by omega)).symm⟩
      · obtain ⟨hc, hle, hpage⟩ := chunk_bounds addr hpos
        generalize min size (PAGE_SIZE - pageOffset addr) = chunk at hc hle hpage
        obtain ⟨m₁, hput, h₁⟩ : ∃ m₁, putChunk addr data offset chunk m = (some (), m₁) ∧
            Stored addr data offset chunk m m₁ :=
          putChunk_stored haddr (by omega) hpage hoffset (by omega)
        have hsize₁ : m₁.size = m.size := h₁.size_eq
        -- the end of the memory is the end of a page
        have hroom : addr + chunk ≤ m.size := by
          simp only [Memory.size, pageOffset, PAGE_SIZE] at *
          omega
        have h₂ : Stored (addr + chunk) data (offset + chunk) (min (size - chunk) (m₁.size - (addr + chunk))) m₁
            (writeLoop data fuel (addr + chunk) (offset + chunk) (size - chunk) m₁).2 :=
          ih (by omega) (by omega) (by omega) (by omega) (by omega) (by omega) (by omega)
        have hrest : min (size - chunk) (m₁.size - (addr + chunk)) = min size (m.size - addr) - chunk := by omega
        rw [hrest] at h₂
        rw [Prog.bind_of_some hput, i32_of_bounds (by omega) (by omega), i32_of_bounds (by omega) (by omega)]
        exact h₁.append h₂ hc.le (by omega)
    · exact ⟨rfl, fun a _ => (if_neg (by omega)).symm⟩

/-- The number of bytes that `write` puts, also where it throws (`write_reaches`). -/
def written (m : Memory) (addr : Int) (data : List UInt8) : Int :=
  if (checkWrite addr data 0 data.length m).1 = some () then min data.length (m.size - addr) else 0

/-- These bytes are put, and no other one changes. -/
theorem write_reaches (haddr : addr < 2147483648) (hdata : (data.length : Int) < 2147483648) :
    Stored addr data 0 (written m addr data) m (write addr data m).2 := by
  rw [written, write, writeRange_eq]
  have hstate : (checkWrite addr data 0 data.length m).2 = m := checkWrite_state
  rcases hcheck : checkWrite addr data 0 data.length m with ⟨_ | u, m'⟩ <;> rw [hcheck] at hstate
  · subst hstate
    rw [Prog.bind_of_none hcheck, if_neg (by simp)]
    exact ⟨rfl, fun a _ => (if_neg (by omega)).symm⟩
  · subst hstate
    obtain ⟨-, hto⟩ := (checkWrite_iff data haddr (by omega) hdata).mp (congrArg Prod.fst hcheck)
    have hend : 0 ≤ addr ∧ addr ≤ m'.size := by
      simp only [InRange, Wraps] at hto
      omega
    rw [Prog.bind_of_some hcheck, if_pos rfl]
    exact writeLoop_reaches (Int.self_le_toNat _) (by omega) hend.1 hend.2 le_rfl (by omega) (by omega)

end

/-- **The checks are exact but where a sum wraps around**, for all `Int`s: then a range
beyond the data or the memory passes. Everywhere else a write that throws leaves every
byte as it was. -/
theorem checks_exact_iff (m : Memory) (data : List UInt8) (hdata : (data.length : Int) < 2147483648)
    (addr offset size len : Int32) :
    (WriteChecked m addr.toInt data offset.toInt size.toInt ↔
      ¬WriteWraps m addr.toInt data offset.toInt size.toInt) ∧
    (ReadChecked m addr.toInt len.toInt ↔ ¬Wraps addr.toInt len.toInt m.size) := by
  have hwrite := checkWrite_iff (m := m) data addr.toInt_lt offset.toInt_lt size.toInt_lt
  have hread := checkRead_iff (m := m) addr.toInt_lt len.toInt_lt
  have hfrom := not_wraps_of_inRange (x := offset.toInt) (n := size.toInt) hdata
  have hto : ∀ {n : Int}, InRange addr.toInt n m.size → ¬Wraps addr.toInt n m.size := not_wraps_of_inRange m.size_lt
  refine ⟨⟨fun hc hw => ?_, fun hw => ?_⟩, ⟨fun hc hw => ?_, fun hw => ?_⟩⟩
  · have hin := hc.exact.mp (hwrite.mpr ?_)
    · rcases hw with ⟨hwraps, -⟩ | ⟨-, hwraps⟩
      · exact hfrom hin.1 hwraps
      · exact hto hin.2 hwraps
    · rcases hw with ⟨hwraps, hother⟩ | ⟨hin, hwraps⟩
      · exact ⟨.inr hwraps, hother⟩
      · exact ⟨.inl hin, .inr hwraps⟩
  · have hexact : (checkWrite addr.toInt data offset.toInt size.toInt m).1 = some () ↔
        InRange offset.toInt size.toInt data.length ∧ InRange addr.toInt size.toInt m.size := by
      refine hwrite.trans ⟨fun ⟨hfirst, hsecond⟩ => ?_, fun hin => ⟨.inl hin.1, .inl hin.2⟩⟩
      have hin : InRange offset.toInt size.toInt data.length := hfirst.resolve_right fun h => hw (.inl ⟨h, hsecond⟩)
      exact ⟨hin, hsecond.resolve_right fun h => hw (.inr ⟨hin, h⟩)⟩
    exact ⟨hexact, unchanged_of_exact hdata hexact.mp⟩
  · exact hto (hc.mp (hread.mpr (.inr hw))) hw
  · exact hread.trans ⟨fun h => h.resolve_right hw, .inl⟩

/-- One page of zeros. -/
def onePage : Memory := ⟨List.replicate 1 fun _ => 0, by decide⟩

/-- Everything in range, and everything out of it. -/
theorem checks_exact_iff_page :
    WriteChecked onePage 65535 [0, 1] 1 1 ∧ WriteChecked onePage 65535 [0, 1] 0 2 ∧ ReadChecked onePage 65535 2 :=
  ⟨(checks_exact_iff onePage [0, 1] (by decide) 65535 1 1 2).1.mpr (by decide),
    (checks_exact_iff onePage [0, 1] (by decide) 65535 0 2 2).1.mpr (by decide),
    (checks_exact_iff onePage [0, 1] (by decide) 65535 1 1 2).2.mpr (by decide)⟩

/-- `Int.MAX_VALUE` bytes from the last address on: one is written before the next page is missed. -/
theorem wrapped_write :
    ¬WriteChecked onePage 65535 [0, 1] 1 2147483647 ∧ ¬ReadChecked onePage 65535 2147483647 ∧
    (writeRange 65535 [0, 1] 1 2147483647 onePage).1 = none ∧
    (writeRange 65535 [0, 1] 1 2147483647 onePage).2.byteAt 65535 = 1 ∧ onePage.byteAt 65535 = 0 := by
  refine ⟨fun h => ?_, fun h => ?_, by decide +kernel, by decide +kernel, by decide⟩
  · exact absurd (h.exact.mp (by decide +kernel)) (by decide)
  · exact absurd (h.mp (by decide +kernel)) (by decide)

end BulkMemory

end Sqlol

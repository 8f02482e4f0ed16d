/-
`StatelessBulkMemory` against a flat array.

The array is a partial function from addresses, defined where the memory has a
byte; a write is that function with the written bytes in place of its own over a
range. `bulk_is_flat` says of every memory that `write` and `readBytes` are these,
through however many pages they go.
-/
import Sqlol.BulkMemory
import Mathlib

namespace Sqlol

namespace BulkMemory

/-- Two ranges that have nothing in common are written in either order. -/
theorem piecewise_comm {α β : Type*} {s t : Set α} [∀ a, Decidable (a ∈ s)] [∀ a, Decidable (a ∈ t)]
    (h : Disjoint s t) (f g array : α → β) :
    s.piecewise f (t.piecewise g array) = t.piecewise g (s.piecewise f array) := by
  funext a
  by_cases hs : a ∈ s
  · have ht : a ∉ t := Set.disjoint_left.mp h hs
    rw [Set.piecewise_eq_of_mem _ _ _ hs, Set.piecewise_eq_of_notMem _ _ _ ht, Set.piecewise_eq_of_mem _ _ _ hs]
  · by_cases ht : a ∈ t
    · rw [Set.piecewise_eq_of_notMem _ _ _ hs, Set.piecewise_eq_of_mem _ _ _ ht, Set.piecewise_eq_of_mem _ _ _ ht]
    · rw [Set.piecewise_eq_of_notMem _ _ _ hs, Set.piecewise_eq_of_notMem _ _ _ ht,
        Set.piecewise_eq_of_notMem _ _ _ ht, Set.piecewise_eq_of_notMem _ _ _ hs]

/-- The array. -/
def Memory.flat (m : Memory) (a : Int) : Option UInt8 := if 0 ≤ a ∧ a < m.size then some (m.byteAt a) else none

section
variable {m m' : Memory} {a : Int}

theorem flat_of_mem (hlo : 0 ≤ a) (hhi : a < m.size) : m.flat a = some (m.byteAt a) := if_pos ⟨hlo, hhi⟩

theorem flat_of_not_mem (h : ¬(0 ≤ a ∧ a < m.size)) : m.flat a = none := if_neg h

theorem size_le_of_flat (h : m.flat = m'.flat) : m.size ≤ m'.size := by
  by_contra hlt
  have hsome : m.flat m'.size = some _ := flat_of_mem m'.size_nonneg (by omega)
  rw [h, flat_of_not_mem (by omega)] at hsome
  cases hsome

/-- The array is all there is to a memory. -/
theorem flat_injective : Function.Injective Memory.flat := by
  intro m m' h
  have hsize : m.size = m'.size := le_antisymm (size_le_of_flat h) (size_le_of_flat h.symm)
  have hlength : m.pages.length = m'.pages.length := by
    simp only [Memory.size, PAGE_SIZE] at hsize
    omega
  have hpages : m.pages = m'.pages := by
    refine List.ext_getElem hlength fun i hi hi' => funext fun k => ?_
    have hlt : PAGE_SIZE * i + (k : Nat) < m.size := by
      have := k.isLt
      simp only [Memory.size, PAGE_SIZE]
      omega
    have hpos : 0 ≤ PAGE_SIZE * i + ((k : Nat) : Int) := by
      simp only [PAGE_SIZE]
      omega
    have hbyte := congrFun h (PAGE_SIZE * i + (k : Nat))
    rw [flat_of_mem hpos hlt, flat_of_mem hpos (hsize ▸ hlt), Option.some.injEq,
      byteAt_page (List.getElem?_eq_getElem hi) k.isLt, byteAt_page (List.getElem?_eq_getElem hi') k.isLt] at hbyte
    rwa [Fin.ofNat_val_eq_self] at hbyte
  cases m
  cases m'
  exact (Memory.mk.injEq ..).mpr hpages

/-- A stored range, on the array. -/
theorem Stored.flat_eq {addr offset size : Int} {data : List UInt8} (h : Stored addr data offset size m m')
    (haddr : 0 ≤ addr) (hend : addr + size ≤ m.size) (hoffset : 0 ≤ offset) (hdata : offset + size ≤ data.length) :
    m'.flat = (Set.Ico addr (addr + size)).piecewise (fun a => data[(offset + (a - addr)).toNat]?) m.flat := by
  funext a
  by_cases hin : a ∈ Set.Ico addr (addr + size)
  · have hlo : addr ≤ a := hin.1
    have hhi : a < addr + size := hin.2
    have hidx : (offset + (a - addr)).toNat < data.length := by omega
    rw [Set.piecewise_eq_of_mem _ _ _ hin, flat_of_mem (by omega) (by rw [h.size_eq]; omega),
      h.inside (by omega) hlo hhi, List.getD_eq_getElem?_getD, List.getElem?_eq_getElem hidx, Option.getD_some]
  · rw [Set.piecewise_eq_of_notMem _ _ _ hin]
    by_cases hmem : 0 ≤ a ∧ a < m.size
    · rw [flat_of_mem hmem.1 (h.size_eq ▸ hmem.2), flat_of_mem hmem.1 hmem.2, h.outside hmem.1 hin]
    · rw [flat_of_not_mem (h.size_eq ▸ hmem), flat_of_not_mem hmem]

theorem getElem?_bytes {addr len : Int} {k : Nat} (haddr : 0 ≤ addr) (hend : addr + len ≤ m.size) (hk : k < len) :
    (m.bytes addr len)[k]? = m.flat (addr + k) := by
  have hrange : k < len.toNat := by omega
  rw [flat_of_mem (by omega) (by omega), Memory.bytes, List.getElem?_map, List.getElem?_range hrange, Option.map_some]

end

/-! ## Writes -/

/-- The arguments of a `write`. -/
structure Write where
  addr : Int
  data : List UInt8
  offset : Int
  size : Int

namespace Write

/-- The call itself. -/
def exec (w : Write) : Prog Memory Unit := writeRange w.addr w.data w.offset w.size

/-- The addresses it is to write. -/
def range (w : Write) : Set Int := Set.Ico w.addr (w.addr + w.size)

instance (w : Write) (a : Int) : Decidable (a ∈ w.range) := inferInstanceAs (Decidable (_ ∧ _))

/-- What it is to write there. -/
def source (w : Write) (a : Int) : Option UInt8 := w.data[(w.offset + (a - w.addr)).toNat]?

/-- `data[offset until offset + size]`. -/
def bytes (w : Write) : List UInt8 := (w.data.drop w.offset.toNat).take w.size.toNat

/-- In the bounds of the memory and of the data, which is an array. -/
structure Fits (w : Write) (m : Memory) : Prop where
  addr : 0 ≤ w.addr
  offset : 0 ≤ w.offset
  size : 0 ≤ w.size
  inMemory : w.addr + w.size ≤ m.size
  inData : w.offset + w.size ≤ w.data.length
  array : w.data.length < 2147483648

variable {w w' : Write} {m : Memory}

theorem Fits.exec_flat (hw : w.Fits m) :
    ∃ m', w.exec m = (some (), m') ∧ m'.flat = w.range.piecewise w.source m.flat ∧ m'.size = m.size := by
  obtain ⟨m', hexec, hst⟩ := writeRange_stores hw.addr hw.size hw.inMemory hw.offset hw.inData
    (by have := hw.array; omega)
  exact ⟨m', hexec, hst.flat_eq hw.addr hw.inMemory hw.offset hw.inData, hst.size_eq⟩

theorem Fits.getElem?_eq {k : Nat} (hw : w.Fits m) (hk : k < w.size) : w.bytes[k]? = w.source (w.addr + k) := by
  have hidx : w.offset.toNat + k = (w.offset + (w.addr + k - w.addr)).toNat := by
    have := hw.offset
    omega
  rw [bytes, List.getElem?_take_of_lt (by omega), List.getElem?_drop, hidx, source]

theorem Fits.length_bytes (hw : w.Fits m) : w.bytes.length = w.size.toNat := by
  have := hw.inData
  have := hw.offset
  rw [bytes, List.length_take, List.length_drop]
  omega

/-- What was written is read back. -/
theorem Fits.read_back {m' : Memory} (hw : w.Fits m) (hflat : m'.flat = w.range.piecewise w.source m.flat)
    (hsize : m'.size = m.size) : readBytes w.addr w.size m' = (some w.bytes, m') := by
  have hend : w.addr + w.size ≤ m'.size := hsize ▸ hw.inMemory
  have hbytes : m'.bytes w.addr w.size = w.bytes := by
    refine List.ext_getElem? fun k => ?_
    by_cases hk : k < w.size.toNat
    · have hk : k < w.size := by omega
      have hmem : w.addr + k ∈ w.range := ⟨by omega, by omega⟩
      rw [getElem?_bytes hw.addr hend hk, hw.getElem?_eq hk, hflat, Set.piecewise_eq_of_mem _ _ _ hmem]
    · rw [List.getElem?_eq_none (by rw [bytes_length]; omega), List.getElem?_eq_none (by rw [hw.length_bytes]; omega)]
  rw [readBytes_eq hw.addr hw.size hend, hbytes]

theorem Fits.exec_comm (hw : w.Fits m) (hw' : w'.Fits m) (hdisjoint : Disjoint w.range w'.range) :
    (w.exec >>= fun _ => w'.exec) m = (w'.exec >>= fun _ => w.exec) m := by
  have hfits : ∀ {u : Write} {m' : Memory}, u.Fits m → m'.size = m.size → u.Fits m' := fun hu hsize =>
    { hu with inMemory := hsize ▸ hu.inMemory }
  obtain ⟨m₁, hexec₁, hflat₁, hsize₁⟩ := hw.exec_flat
  obtain ⟨m₂, hexec₂, hflat₂, hsize₂⟩ := hw'.exec_flat
  obtain ⟨m₃, hexec₃, hflat₃, -⟩ := (hfits hw' hsize₁).exec_flat
  obtain ⟨m₄, hexec₄, hflat₄, -⟩ := (hfits hw hsize₂).exec_flat
  have hsame : m₃ = m₄ := by
    apply flat_injective
    rw [hflat₃, hflat₄, hflat₁, hflat₂]
    exact piecewise_comm hdisjoint.symm _ _ _
  rw [Prog.bind_of_some hexec₁, Prog.bind_of_some hexec₂, hexec₃, hexec₄, hsame]

end Write

/-- **The bulk operations are those of a flat array**: a write in bounds puts its
bytes at its addresses and leaves every other byte, a read in bounds returns what is
there, and so a read behind a write returns what was written, and writes to ranges
that are disjoint commute. -/
theorem bulk_is_flat (m : Memory) :
    (∀ w : Write, w.Fits m → ∃ m', w.exec m = (some (), m') ∧ m'.flat = w.range.piecewise w.source m.flat ∧
      readBytes w.addr w.size m' = (some w.bytes, m')) ∧
    (∀ addr len, 0 ≤ addr → 0 ≤ len → addr + len ≤ m.size → ∃ bytes, readBytes addr len m = (some bytes, m) ∧
      bytes.length = len.toNat ∧ ∀ k : Nat, k < len → bytes[k]? = m.flat (addr + k)) ∧
    ∀ w w' : Write, w.Fits m → w'.Fits m → Disjoint w.range w'.range →
      (w.exec >>= fun _ => w'.exec) m = (w'.exec >>= fun _ => w.exec) m := by
  refine ⟨fun w hw => ?_, fun addr len haddr hlen hend => ?_, fun w w' => Write.Fits.exec_comm⟩
  · obtain ⟨m', hexec, hflat, hsize⟩ := hw.exec_flat
    exact ⟨m', hexec, hflat, hw.read_back hflat hsize⟩
  · exact ⟨_, readBytes_eq haddr hlen hend, bytes_length, fun k hk => getElem?_bytes haddr hend hk⟩

/-- Two pages of zeros. -/
def twoPages : Memory := ⟨[fun _ => 0, fun _ => 0], by decide⟩

/-- Two bytes, one on each side of the border. -/
theorem bulk_is_flat_border : ∃ m', Write.exec ⟨65535, [7, 8, 9], 1, 2⟩ twoPages = (some (), m') ∧
    readBytes 65535 2 m' = (some [8, 9], m') := by
  obtain ⟨m', hexec, -, hread⟩ := (bulk_is_flat twoPages).1 ⟨65535, [7, 8, 9], 1, 2⟩
    ⟨by decide, by decide, by decide, by decide, by decide, by decide⟩
  exact ⟨m', hexec, hread⟩

end BulkMemory

end Sqlol

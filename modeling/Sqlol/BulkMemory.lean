/-
`StatelessBulkMemory`: the guest's memory, in pages of 64 KiB, with the bulk
`write` and `readBytes` that go through it a page at a time.

`byteAt` is the memory as one array of bytes. `write_stores` and
`readBytes_eq` say of every alignment and every length that the loops over the
pages are the plain copy there. The runtime grows no memory beyond
`RUNTIME_MAX_PAGES`, which keeps every address within an `Int`.
-/
import Sqlol.Int32
import Sqlol.Prog
import Mathlib.Algebra.Order.Ring.Int

namespace Sqlol

namespace BulkMemory

/-- `Memory.PAGE_SIZE`. -/
def PAGE_SIZE : Int := 65536

/-- `PAGE_SIZE` is `1 shl PAGE_SHIFT`. -/
def PAGE_SHIFT : Nat := 16

/-- `Memory.RUNTIME_MAX_PAGES`. -/
def RUNTIME_MAX_PAGES : Nat := 32767

/-- A page's `ByteBuffer`. -/
abbrev Page : Type := Fin 65536 → UInt8

/-- `ByteArray` pages, no more than the runtime allows. -/
structure Memory where
  pages : List Page
  bounded : pages.length ≤ RUNTIME_MAX_PAGES

/-- In bytes. -/
def Memory.size (m : Memory) : Int := PAGE_SIZE * m.pages.length

/-- `Memory.PAGE_SIZE * inner.pages()`. -/
def Memory.limit (m : Memory) : Int := i32 (PAGE_SIZE * m.pages.length)

/-- Another page at an index. -/
def Memory.setPage (m : Memory) (i : Nat) (p : Page) : Memory where
  pages := m.pages.set i p
  bounded := by rw [List.length_set]; exact m.bounded

/-- The memory as one array. -/
def Memory.byteAt (m : Memory) (a : Int) : UInt8 := match m.pages[(a / PAGE_SIZE).toNat]? with
  | some p => p (Fin.ofNat 65536 a.toNat)
  | none => 0

/-- The bytes of a range, page or no page. -/
def Memory.bytes (m : Memory) (addr len : Int) : List UInt8 :=
  (List.range len.toNat).map fun k : Nat => m.byteAt (addr + k)

/-! ## The bulk operations -/

/-- `checkBounds`. -/
def outOfBounds (addr size limit : Int) : Bool :=
  addr < 0 || size < 0 || limit < addr || (0 < size && limit < i32 (addr + size))

/-- `addr ushr PAGE_SHIFT`. -/
def pageIdx (addr : Int) : Int := addr % 4294967296 / 2 ^ PAGE_SHIFT

/-- `addr and PAGE_MASK`. -/
def pageOffset (addr : Int) : Int := addr % PAGE_SIZE

/-- `System.arraycopy` into a page. -/
def Page.put (p : Page) (index : Int) (src : List UInt8) (offset length : Int) : Page := fun k =>
  if index ≤ k ∧ k < index + length then src.getD (offset + (k - index)).toNat 0 else p k

/-- `System.arraycopy` out of a page. -/
def Page.get (p : Page) (index length : Int) : List UInt8 :=
  (List.range length.toNat).map fun k => p (Fin.ofNat 65536 (index.toNat + k))

/-- `pages[pageIdx].put(pageOffset, data, offset, chunk)`: no page behind the last one, no byte behind the data's. -/
def putChunk (addr : Int) (data : List UInt8) (offset chunk : Int) : Prog Memory Unit := fun m =>
  match m.pages[(pageIdx addr).toNat]? with
  | none => (none, m)
  | some p =>
    if offset < 0 ∨ (data.length : Int) < offset + chunk then (none, m)
    else (some (), m.setPage (pageIdx addr).toNat (p.put (pageOffset addr) data offset chunk))

/-- What is read of one page; it throws where there is none. -/
def getChunk (addr chunk : Int) : Prog Memory (List UInt8) := fun m =>
  match m.pages[(pageIdx addr).toNat]? with
  | none => (none, m)
  | some p => (some (p.get (pageOffset addr) chunk), m)

/-- `while (size > 0)`. A turn takes a byte at least: `size` turns are enough. -/
def writeLoop (data : List UInt8) : Nat → Int → Int → Int → Prog Memory Unit
  | 0, _, _, _ => pure ()
  | fuel + 1, addr, offset, size =>
    if 0 < size then do
      let chunk := min size (PAGE_SIZE - pageOffset addr)
      putChunk addr data offset chunk
      writeLoop data fuel (i32 (addr + chunk)) (i32 (offset + chunk)) (size - chunk)
    else pure ()

/-- `write(addr, data, offset, size)`. -/
def writeRange (addr : Int) (data : List UInt8) (offset size : Int) : Prog Memory Unit := do
  Prog.throwIf (outOfBounds offset size data.length)
  Prog.throwIf (outOfBounds addr size (← Prog.get).limit)
  writeLoop data size.toNat addr offset size

/-- `write(addr, data)`. -/
def write (addr : Int) (data : List UInt8) : Prog Memory Unit := writeRange addr data 0 data.length

/-- `while (remaining > 0)`. -/
def readLoop : Nat → Int → Int → Prog Memory (List UInt8)
  | 0, _, _ => pure []
  | fuel + 1, a, remaining =>
    if 0 < remaining then do
      let chunk := min remaining (PAGE_SIZE - pageOffset a)
      let part ← getChunk a chunk
      let rest ← readLoop fuel (i32 (a + chunk)) (remaining - chunk)
      pure (part ++ rest)
    else pure []

/-- `readBytes(addr, len)`. -/
def readBytes (addr len : Int) : Prog Memory (List UInt8) := do
  Prog.throwIf (outOfBounds addr len (← Prog.get).limit)
  readLoop len.toNat addr len

/-- `toByteArray(Charsets.UTF_8)`. -/
def toByteArray (s : String) : List UInt8 := s.toByteArray.data.toList

/-- `String(bytes, Charsets.UTF_8)`, which puts something else in place of malformed bytes. -/
def stringOf (malformed : List UInt8 → String) (bytes : List UInt8) : String :=
  (String.fromUTF8? ⟨bytes.toArray⟩).getD (malformed bytes)

/-- `readString(addr, len)`. -/
def readString (malformed : List UInt8 → String) (addr len : Int) : Prog Memory String := do
  let bytes ← readBytes addr len
  pure (stringOf malformed bytes)

theorem stringOf_toByteArray (malformed : List UInt8 → String) (s : String) :
    stringOf malformed (toByteArray s) = s := by
  have hs : String.fromUTF8? s.toByteArray = some s := dif_pos s.isValidUTF8
  simp only [stringOf, toByteArray, Array.toArray_toList, hs, Option.getD_some]

/-! ## The array -/

section
variable {m m' : Memory} {addr offset size a : Int} {data : List UInt8}

theorem Memory.size_lt : m.size < 2147483648 := by
  have := m.bounded
  simp only [Memory.size, PAGE_SIZE, RUNTIME_MAX_PAGES] at *
  omega

theorem Memory.size_nonneg : 0 ≤ m.size := by
  simp only [Memory.size, PAGE_SIZE]
  omega

theorem Memory.limit_eq : m.limit = m.size := by
  have := m.size_lt
  exact i32_of_bounds (by simp only [PAGE_SIZE]; omega) this

theorem inBounds {limit : Int} (haddr : 0 ≤ addr) (hsize : 0 ≤ size) (hend : addr + size ≤ limit)
    (hlimit : limit < 2147483648) : outOfBounds addr size limit = false := by
  have hsum : i32 (addr + size) = addr + size := i32_of_bounds (by omega) (by omega)
  simp only [outOfBounds, hsum, Bool.or_eq_false_iff, Bool.and_eq_false_iff, decide_eq_false_iff_not]
  omega

theorem pageIdx_eq (haddr : 0 ≤ addr) (hlt : addr < 2147483648) : pageIdx addr = addr / PAGE_SIZE := by
  simp only [pageIdx, PAGE_SHIFT, PAGE_SIZE]
  omega

theorem exists_page (haddr : 0 ≤ addr) (hlt : addr < m.size) :
    ∃ p, m.pages[(pageIdx addr).toNat]? = some p := by
  have hidx : (pageIdx addr).toNat < m.pages.length := by
    rw [pageIdx_eq haddr (hlt.trans m.size_lt)]
    simp only [Memory.size, PAGE_SIZE] at hlt ⊢
    omega
  exact ⟨_, List.getElem?_eq_getElem hidx⟩

/-- `m'` is `m` with a part of the data at `addr`. -/
structure Stored (addr : Int) (data : List UInt8) (offset size : Int) (m m' : Memory) : Prop where
  pages : m'.pages.length = m.pages.length
  byte : ∀ a, 0 ≤ a → m'.byteAt a =
    if addr ≤ a ∧ a < addr + size then data.getD (offset + (a - addr)).toNat 0 else m.byteAt a

theorem Stored.size_eq (h : Stored addr data offset size m m') : m'.size = m.size := by
  rw [Memory.size, h.pages, Memory.size]

theorem Stored.inside (h : Stored addr data offset size m m') (hlo : 0 ≤ a) (haddr : addr ≤ a)
    (hhi : a < addr + size) : m'.byteAt a = data.getD (offset + (a - addr)).toNat 0 := by
  rw [h.byte a hlo, if_pos ⟨haddr, hhi⟩]

theorem Stored.outside (h : Stored addr data offset size m m') (hlo : 0 ≤ a)
    (hout : ¬(addr ≤ a ∧ a < addr + size)) : m'.byteAt a = m.byteAt a := by
  rw [h.byte a hlo, if_neg hout]

/-- A chunk, and the rest behind it. -/
theorem Stored.append {m₁ : Memory} {chunk : Int} (h : Stored addr data offset chunk m m₁)
    (h' : Stored (addr + chunk) data (offset + chunk) (size - chunk) m₁ m') (hchunk : 0 ≤ chunk)
    (hsize : chunk ≤ size) : Stored addr data offset size m m' := by
  refine ⟨h'.pages.trans h.pages, fun a ha => ?_⟩
  by_cases hrest : addr + chunk ≤ a ∧ a < addr + chunk + (size - chunk)
  · rw [h'.inside ha hrest.1 hrest.2, if_pos (by omega)]
    congr 2
    omega
  · rw [h'.outside ha hrest]
    by_cases hfirst : addr ≤ a ∧ a < addr + chunk
    · rw [h.inside ha hfirst.1 hfirst.2, if_pos (by omega)]
    · rw [h.outside ha hfirst, if_neg (by omega)]

/-- A page's bytes are those of the memory from its first address on. -/
theorem byteAt_page {i : Nat} {p : Page} (hp : m.pages[i]? = some p) {k : Nat} (hk : k < 65536) :
    m.byteAt (PAGE_SIZE * i + k) = p (Fin.ofNat 65536 k) := by
  have hi : ((PAGE_SIZE * i + k) / PAGE_SIZE).toNat = i := by
    simp only [PAGE_SIZE]
    omega
  have hk' : Fin.ofNat 65536 (PAGE_SIZE * i + k).toNat = Fin.ofNat 65536 k := by
    apply Fin.ext
    simp only [PAGE_SIZE, Fin.ofNat]
    omega
  rw [Memory.byteAt, hi, hp]
  exact congrArg p hk'

theorem setPage_stored {i : Nat} {p : Page} {index chunk : Int} (hp : m.pages[i]? = some p) (hindex : 0 ≤ index)
    (hend : index + chunk ≤ PAGE_SIZE) :
    Stored (PAGE_SIZE * i + index) data offset chunk m (m.setPage i (p.put index data offset chunk)) := by
  refine ⟨List.length_set, fun a ha => ?_⟩
  have hlt : i < m.pages.length := (List.getElem?_eq_some_iff.mp hp).1
  by_cases hi : (a / PAGE_SIZE).toNat = i
  · obtain ⟨k, hk, rfl⟩ : ∃ k : Nat, k < 65536 ∧ a = PAGE_SIZE * i + k := by
      refine ⟨(a % PAGE_SIZE).toNat, ?_, ?_⟩ <;> simp only [PAGE_SIZE] at hi ⊢ <;> omega
    have hset : (m.setPage i (p.put index data offset chunk)).pages[i]? = some (p.put index data offset chunk) := by
      simp only [Memory.setPage, List.getElem?_set_self hlt]
    have hmod : ((Fin.ofNat 65536 k : Fin 65536) : Int) = k := by
      simp only [Fin.ofNat]
      omega
    rw [byteAt_page hset hk, byteAt_page hp hk, Page.put, hmod]
    split
    · rw [if_pos (by omega)]
      congr 2
      omega
    · rw [if_neg (by omega)]
  · have hne : i ≠ (a / PAGE_SIZE).toNat := fun h => hi h.symm
    have hout : ¬(PAGE_SIZE * i + index ≤ a ∧ a < PAGE_SIZE * i + index + chunk) := by
      simp only [PAGE_SIZE] at *
      omega
    rw [if_neg hout]
    simp only [Memory.byteAt, Memory.setPage, List.getElem?_set_ne hne]

/-- The bytes from `addr` on that are in one page. -/
theorem page_addr (haddr : 0 ≤ addr) (hlt : addr < 2147483648) :
    PAGE_SIZE * (pageIdx addr).toNat + pageOffset addr = addr := by
  rw [pageIdx_eq haddr hlt]
  simp only [pageOffset, PAGE_SIZE]
  omega

theorem putChunk_stored {chunk : Int} (haddr : 0 ≤ addr) (hlt : addr < m.size)
    (hpage : pageOffset addr + chunk ≤ PAGE_SIZE) (hoffset : 0 ≤ offset) (hdata : offset + chunk ≤ data.length) :
    ∃ m', putChunk addr data offset chunk m = (some (), m') ∧ Stored addr data offset chunk m m' := by
  obtain ⟨p, hp⟩ := exists_page haddr hlt
  have hin : ¬(offset < 0 ∨ (data.length : Int) < offset + chunk) := by omega
  refine ⟨m.setPage (pageIdx addr).toNat (p.put (pageOffset addr) data offset chunk), ?_, ?_⟩
  · simp only [putChunk, hp, if_neg hin]
  · have hst : Stored (PAGE_SIZE * (pageIdx addr).toNat + pageOffset addr) data offset chunk m _ :=
      setPage_stored hp (Int.emod_nonneg addr (by decide)) hpage
    rw [page_addr haddr (hlt.trans m.size_lt)] at hst
    exact hst

/-- A turn of a loop does something, no more than is left, and in one page. -/
theorem chunk_bounds (addr : Int) (hsize : 0 < size) :
    0 < min size (PAGE_SIZE - pageOffset addr) ∧ min size (PAGE_SIZE - pageOffset addr) ≤ size ∧
      pageOffset addr + min size (PAGE_SIZE - pageOffset addr) ≤ PAGE_SIZE := by
  simp only [pageOffset, PAGE_SIZE]
  omega

theorem writeLoop_stores {fuel : Nat} (hfuel : size ≤ fuel) (hsize : 0 ≤ size) (haddr : 0 ≤ addr)
    (hend : addr + size ≤ m.size) (hoffset : 0 ≤ offset) (hdata : offset + size ≤ data.length)
    (hint : offset + size < 2147483648) :
    ∃ m', writeLoop data fuel addr offset size m = (some (), m') ∧ Stored addr data offset size m m' := by
  induction fuel generalizing addr offset size m with
  | zero =>
    have : size = 0 := by omega
    exact ⟨m, rfl, rfl, fun a _ => (if_neg (by omega)).symm⟩
  | succ fuel ih =>
    unfold writeLoop
    split
    · next hpos =>
      have hm := m.size_lt
      obtain ⟨hc, hle, hpage⟩ := chunk_bounds addr hpos
      generalize min size (PAGE_SIZE - pageOffset addr) = chunk at hc hle hpage
      obtain ⟨m₁, hput, h₁⟩ : ∃ m₁, putChunk addr data offset chunk m = (some (), m₁) ∧
          Stored addr data offset chunk m m₁ :=
        putChunk_stored haddr (by omega) hpage hoffset (by omega)
      have hsize₁ : m₁.size = m.size := h₁.size_eq
      obtain ⟨m₂, hrest, h₂⟩ : ∃ m₂, writeLoop data fuel (addr + chunk) (offset + chunk) (size - chunk) m₁ =
          (some (), m₂) ∧ Stored (addr + chunk) data (offset + chunk) (size - chunk) m₁ m₂ :=
        ih (by omega) (by omega) (by omega) (by omega) (by omega) (by omega) (by omega)
      refine ⟨m₂, ?_, h₁.append h₂ hc.le hle⟩
      rw [Prog.bind_of_some hput, i32_of_bounds (by omega) (by omega), i32_of_bounds (by omega) (by omega)]
      exact hrest
    · exact ⟨m, rfl, rfl, fun a _ => (if_neg (by omega)).symm⟩

/-- **A bulk write is the plain copy**, whatever pages it goes through. -/
theorem writeRange_stores (haddr : 0 ≤ addr) (hsize : 0 ≤ size) (hend : addr + size ≤ m.size) (hoffset : 0 ≤ offset)
    (hdata : offset + size ≤ data.length) (hint : (data.length : Int) < 2147483648) :
    ∃ m', writeRange addr data offset size m = (some (), m') ∧ Stored addr data offset size m m' := by
  have hfrom : outOfBounds offset size data.length = false := inBounds hoffset hsize hdata hint
  have hto : outOfBounds addr size m.limit = false := by
    rw [m.limit_eq]
    exact inBounds haddr hsize hend m.size_lt
  obtain ⟨m', hloop, hst⟩ := writeLoop_stores (Int.self_le_toNat size) hsize haddr hend hoffset hdata (by omega)
  refine ⟨m', ?_, hst⟩
  simp only [writeRange, hfrom]
  refine Eq.trans ?_ hloop
  show (Prog.throwIf (outOfBounds addr size m.limit) >>= fun _ => writeLoop data size.toNat addr offset size) m = _
  rw [hto]
  rfl

theorem write_stores (haddr : 0 ≤ addr) (hend : addr + data.length ≤ m.size) :
    ∃ m', write addr data m = (some (), m') ∧ Stored addr data 0 data.length m m' := by
  have hm := m.size_lt
  exact writeRange_stores haddr (by omega) hend le_rfl (by omega) (by omega)

/-! ## Reading -/

theorem bytes_length {len : Int} : (m.bytes addr len).length = len.toNat := by
  rw [Memory.bytes, List.length_map, List.length_range]

theorem bytes_append {n k : Int} (hn : 0 ≤ n) (hk : 0 ≤ k) :
    m.bytes addr (n + k) = m.bytes addr n ++ m.bytes (addr + n) k := by
  have hsum : (n + k).toNat = n.toNat + k.toNat := Int.toNat_add hn hk
  simp only [Memory.bytes, hsum, List.range_add, List.map_append, List.map_map]
  congr 1
  refine List.map_congr_left fun i _ => ?_
  simp only [Function.comp]
  congr 1
  omega

/-- Bytes are the same where every one of them is. -/
theorem bytes_congr {len : Int} (h : ∀ a, addr ≤ a → a < addr + len → m'.byteAt a = m.byteAt a) :
    m'.bytes addr len = m.bytes addr len := by
  refine List.map_congr_left fun k hk => h _ (by omega) ?_
  have := List.mem_range.mp hk
  omega

/-- What was written is read back. -/
theorem Stored.bytes_eq (h : Stored addr data 0 data.length m m') (haddr : 0 ≤ addr) :
    m'.bytes addr data.length = data := by
  refine List.ext_getElem (by simp [bytes_length]) fun i _ hi => ?_
  have hbyte : m'.byteAt (addr + i) = data.getD (0 + (addr + i - addr)).toNat 0 :=
    h.inside (by omega) (by omega) (by omega)
  have hidx : (0 + (addr + i - addr)).toNat = i := by omega
  rw [hidx, List.getD_eq_getElem?_getD, List.getElem?_eq_getElem hi, Option.getD_some] at hbyte
  simp only [Memory.bytes, List.getElem_map, List.getElem_range]
  exact hbyte

theorem getChunk_eq {chunk : Int} (haddr : 0 ≤ addr) (hlt : addr < m.size)
    (hpage : pageOffset addr + chunk ≤ PAGE_SIZE) : getChunk addr chunk m = (some (m.bytes addr chunk), m) := by
  obtain ⟨p, hp⟩ := exists_page haddr hlt
  have hoff : 0 ≤ pageOffset addr := Int.emod_nonneg addr (by decide)
  have hpart : p.get (pageOffset addr) chunk = m.bytes addr chunk := by
    refine List.map_congr_left fun k hk => ?_
    have hk' := List.mem_range.mp hk
    have hbyte : m.byteAt (PAGE_SIZE * (pageIdx addr).toNat + ((pageOffset addr).toNat + k : Nat)) =
        p (Fin.ofNat 65536 ((pageOffset addr).toNat + k)) :=
      byteAt_page hp (by simp only [PAGE_SIZE] at hpage; omega)
    have haddr' := page_addr haddr (hlt.trans m.size_lt)
    rw [← hbyte]
    congr 1
    omega
  simp only [getChunk, hp, hpart]

theorem readLoop_eq {fuel : Nat} (hfuel : size ≤ fuel) (hsize : 0 ≤ size) (haddr : 0 ≤ addr)
    (hend : addr + size ≤ m.size) : readLoop fuel addr size m = (some (m.bytes addr size), m) := by
  induction fuel generalizing addr size with
  | zero =>
    have : size = 0 := by omega
    subst this
    rfl
  | succ fuel ih =>
    unfold readLoop
    split
    · next hpos =>
      have hm := m.size_lt
      obtain ⟨hc, hle, hpage⟩ := chunk_bounds addr hpos
      generalize min size (PAGE_SIZE - pageOffset addr) = chunk at hc hle hpage
      have hget : getChunk addr chunk m = (some (m.bytes addr chunk), m) := getChunk_eq haddr (by omega) hpage
      have hrest : readLoop fuel (addr + chunk) (size - chunk) m = (some (m.bytes (addr + chunk) (size - chunk)), m) :=
        ih (by omega) (by omega) (by omega) (by omega)
      have hsplit : m.bytes addr (chunk + (size - chunk)) = _ := bytes_append hc.le (by omega)
      rw [add_sub_cancel chunk size] at hsplit
      rw [Prog.bind_of_some hget, i32_of_bounds (by omega) (by omega), Prog.bind_of_some hrest, hsplit]
      rfl
    · have : size = 0 := by omega
      subst this
      rfl

theorem keeps_putChunk {chunk n : Int} : Prog.Keeps (fun m => m.size = n) (putChunk addr data offset chunk) := by
  intro m hm
  unfold Prog.wp putChunk
  cases m.pages[(pageIdx addr).toNat]? with
  | none => exact hm
  | some p =>
    by_cases hout : offset < 0 ∨ (data.length : Int) < offset + chunk
    · simp only [if_pos hout]
      exact hm
    · simp only [if_neg hout]
      simpa only [Memory.size, Memory.setPage, List.length_set] using hm

theorem keeps_writeLoop {fuel : Nat} {n : Int} :
    Prog.Keeps (fun m => m.size = n) (writeLoop data fuel addr offset size) := by
  induction fuel generalizing addr offset size with
  | zero => exact Prog.keeps_pure ()
  | succ fuel ih =>
    unfold writeLoop
    split
    · exact keeps_putChunk.bind fun _ => ih
    · exact Prog.keeps_pure ()

/-- A write leaves the memory its size, also where it throws. -/
theorem keeps_write {n : Int} : Prog.Keeps (fun m => m.size = n) (write addr data) :=
  (Prog.keeps_throwIf _).bind fun _ => Prog.keeps_get.bind fun _ => (Prog.keeps_throwIf _).bind fun _ => keeps_writeLoop

theorem keeps_readLoop {P : Memory → Prop} {fuel : Nat} : Prog.Keeps P (readLoop fuel addr size) := by
  induction fuel generalizing addr size with
  | zero => exact Prog.keeps_pure []
  | succ fuel ih =>
    unfold readLoop
    split
    · refine Prog.Keeps.bind (fun m hm => ?_) fun _ => ih.bind fun _ => Prog.keeps_pure _
      unfold Prog.wp getChunk
      cases m.pages[(pageIdx addr).toNat]? with
      | none => exact hm
      | some p => exact hm
    · exact Prog.keeps_pure []

/-- A read leaves the memory as it is. -/
theorem keeps_readBytes {P : Memory → Prop} {len : Int} : Prog.Keeps P (readBytes addr len) :=
  Prog.keeps_get.bind fun _ => (Prog.keeps_throwIf _).bind fun _ => keeps_readLoop

/-- **A bulk read is the plain one.** -/
theorem readBytes_eq {len : Int} (haddr : 0 ≤ addr) (hlen : 0 ≤ len) (hend : addr + len ≤ m.size) :
    readBytes addr len m = (some (m.bytes addr len), m) := by
  have hin : outOfBounds addr len m.limit = false := by
    rw [m.limit_eq]
    exact inBounds haddr hlen hend m.size_lt
  refine Eq.trans ?_ (readLoop_eq (Int.self_le_toNat len) hlen haddr hend)
  show (Prog.throwIf (outOfBounds addr len m.limit) >>= fun _ => readLoop len.toNat addr len) m = _
  rw [hin]
  rfl

theorem readString_eq {malformed : List UInt8 → String} {len : Int} (haddr : 0 ≤ addr) (hlen : 0 ≤ len)
    (hend : addr + len ≤ m.size) :
    readString malformed addr len m = (some (stringOf malformed (m.bytes addr len)), m) :=
  Prog.bind_of_some (readBytes_eq haddr hlen hend)

end

end BulkMemory

end Sqlol

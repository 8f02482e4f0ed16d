/-
The guest's memory as `malloc` and `free` hand it out.

The guest is a parameter. Whenever it runs it may grow the memory and leave
anything where no block of the session's is; a block it hands out lies in the
memory and apart from the others, and when it has none it answers 0 and
`exhausted` notes it. `Frame` is what the holder of a block may rely on.
-/
import Sqlol.BulkMemory
import Mathlib.Data.List.Pairwise

namespace Sqlol

namespace GuestHeap

open BulkMemory

/-- A block of the guest's heap. -/
structure Block where
  addr : Int
  size : Int
  deriving DecidableEq

/-- The address lies in the block. -/
def Block.Has (b : Block) (a : Int) : Prop := b.addr ≤ a ∧ a < b.addr + b.size

instance (b : Block) (a : Int) : Decidable (b.Has a) := inferInstanceAs (Decidable (_ ∧ _))

/-- They have no byte in common. -/
def Block.Apart (b c : Block) : Prop := b.addr + b.size ≤ c.addr ∨ c.addr + c.size ≤ b.addr

instance (b c : Block) : Decidable (b.Apart c) := inferInstanceAs (Decidable (_ ∨ _))

instance : Std.Symm Block.Apart := ⟨fun _ _ h => Or.symm h⟩

theorem Block.Apart.not_has {b c : Block} {a : Int} (h : b.Apart c) (hc : c.Has a) : ¬b.Has a := by
  intro hb
  have hb := hb
  simp only [Block.Has, Block.Apart] at *
  omega

/-- The guest's memory and its allocator. -/
structure Heap where
  mem : Memory
  /-- The blocks handed out and not freed. -/
  live : List Block := []
  time : Nat := 0
  exhausted : Bool := false

/-- What the guest does with its memory, by the number of calls before. -/
structure Guest where
  alloc : Nat → Int
  grow : Nat → Nat
  scribble : Nat → Int → UInt8

/-- `memory.grow`, as far as the pages are allowed. -/
def grow (m : Memory) (n : Nat) : Memory where
  pages := m.pages ++ List.replicate (min n (RUNTIME_MAX_PAGES - m.pages.length)) fun _ => 0
  bounded := by
    have := m.bounded
    rw [List.length_append, List.length_replicate]
    omega

/-- Every byte anew, by its address and what it was. -/
def rewrite (m : Memory) (f : Int → UInt8 → UInt8) : Memory where
  pages := m.pages.mapIdx fun i p k => f (PAGE_SIZE * i + (k : Nat)) (p k)
  bounded := by rw [List.length_mapIdx]; exact m.bounded

/-- The guest's own copy of some bytes. -/
def store (m : Memory) (addr : Int) (bytes : List UInt8) : Memory := rewrite m fun a old =>
  if addr ≤ a ∧ a < addr + bytes.length then bytes.getD (0 + (a - addr)).toNat 0 else old

/-- The guest has run. -/
def Heap.ran (g : Guest) (h : Heap) : Heap := { h with
  mem := rewrite (grow h.mem (g.grow h.time)) fun a old =>
    if ∃ b ∈ h.live, b.Has a then old else g.scribble h.time a
  time := h.time + 1 }

/-- A block is a byte at least, so that no two have one address. -/
def Heap.malloc (g : Guest) (n : Int) (h : Heap) : Int × Heap :=
  let b : Block := ⟨g.alloc h.time, max n 1⟩
  if 0 < b.addr ∧ b.addr + b.size ≤ (h.ran g).mem.size ∧ ∀ c ∈ h.live, b.Apart c then
    (b.addr, { h.ran g with live := b :: h.live })
  else (0, { h.ran g with exhausted := true })

/-- `free`; an address that is no block's is nothing to it. -/
def Heap.free (g : Guest) (addr : Int) (h : Heap) : Heap :=
  Heap.ran g { h with live := h.live.filter fun b => b.addr ≠ addr }

/-! ## The memory behind a guest's call -/

section
variable {m : Memory} {a : Int}

theorem size_grow {n : Nat} : m.size ≤ (grow m n).size := by
  simp only [Memory.size, grow, List.length_append, PAGE_SIZE]
  omega

theorem byteAt_grow {n : Nat} (ha : 0 ≤ a) (hlt : a < m.size) : (grow m n).byteAt a = m.byteAt a := by
  have hidx : (a / PAGE_SIZE).toNat < m.pages.length := by
    simp only [Memory.size, PAGE_SIZE] at hlt ⊢
    omega
  simp only [Memory.byteAt, grow, List.getElem?_append_left hidx]

theorem size_rewrite {f : Int → UInt8 → UInt8} : (rewrite m f).size = m.size := by
  simp only [Memory.size, rewrite, List.length_mapIdx]

theorem byteAt_rewrite {f : Int → UInt8 → UInt8} (ha : 0 ≤ a) (hlt : a < m.size) :
    (rewrite m f).byteAt a = f a (m.byteAt a) := by
  have hidx : (a / PAGE_SIZE).toNat < m.pages.length := by
    simp only [Memory.size, PAGE_SIZE] at hlt ⊢
    omega
  have haddr : PAGE_SIZE * (a / PAGE_SIZE).toNat + ((Fin.ofNat 65536 a.toNat : Fin 65536) : Nat) = a := by
    simp only [PAGE_SIZE, Fin.ofNat]
    omega
  simp only [Memory.byteAt, rewrite, List.getElem?_mapIdx, List.getElem?_eq_getElem hidx, Option.map_some, haddr]

theorem store_stored {addr : Int} {bytes : List UInt8} (hend : addr + bytes.length ≤ m.size) :
    Stored addr bytes 0 bytes.length m (store m addr bytes) := by
  refine ⟨List.length_mapIdx, fun a ha => ?_⟩
  by_cases hlt : a < m.size
  · exact byteAt_rewrite ha hlt
  · rw [if_neg (by omega)]
    have hidx : m.pages.length ≤ (a / PAGE_SIZE).toNat := by
      simp only [Memory.size, PAGE_SIZE] at hlt ⊢
      omega
    simp only [Memory.byteAt, store, rewrite, List.getElem?_mapIdx, List.getElem?_eq_none hidx, Option.map_none]

end

/-! ## The blocks -/

variable {g : Guest} {h h' : Heap} {b : Block}

/-- The blocks lie in the memory, apart from each other and above 0. -/
structure Heap.Sound (h : Heap) : Prop where
  inside : ∀ b ∈ h.live, 0 < b.addr ∧ 0 < b.size ∧ b.addr + b.size ≤ h.mem.size
  apart : h.live.Pairwise Block.Apart

/-- The bytes of a block are the same behind the call. -/
def Same (b : Block) (h h' : Heap) : Prop := ∀ a, b.Has a → h'.mem.byteAt a = h.mem.byteAt a

theorem Same.bytes_eq {n : Int} (hs : Same b h h') (hn : n ≤ b.size) :
    h'.mem.bytes b.addr n = h.mem.bytes b.addr n :=
  bytes_congr fun a hlo hhi => hs a ⟨hlo, by omega⟩

/-- What a call leaves to the holders of blocks that it does not free. -/
structure Frame (h h' : Heap) : Prop where
  size : h.mem.size ≤ h'.mem.size
  same : ∀ b ∈ h.live, b ∈ h'.live → Same b h h'

theorem ran_size : h.mem.size ≤ (h.ran g).mem.size := by
  simp only [Heap.ran, size_rewrite]
  exact size_grow

theorem Heap.Sound.ran_same (hs : h.Sound) (hb : b ∈ h.live) : Same b h (h.ran g) := by
  intro a ha
  obtain ⟨hpos, -, hend⟩ := hs.inside b hb
  have hlo : 0 ≤ a := by have := ha.1; omega
  have hhi : a < h.mem.size := by have := ha.2; omega
  have hgrown : a < (grow h.mem (g.grow h.time)).size := hhi.trans_le size_grow
  simp only [Heap.ran, byteAt_rewrite hlo hgrown, byteAt_grow hlo hhi]
  exact if_pos ⟨b, hb, ha⟩

theorem Heap.Sound.ran (hs : h.Sound) : (h.ran g).Sound := by
  refine ⟨fun b hb => ?_, hs.apart⟩
  obtain ⟨hpos, hsize, hend⟩ := hs.inside b hb
  exact ⟨hpos, hsize, hend.trans ran_size⟩

theorem Heap.Sound.ran_frame (hs : h.Sound) : Frame h (h.ran g) := ⟨ran_size, fun _ hb _ => hs.ran_same hb⟩

/-- No two blocks have one address. -/
theorem Heap.Sound.addr_ne {c : Block} (hs : h.Sound) (hsize : 0 < b.size) (hapart : b.Apart c) (hc : c ∈ h.live) :
    c.addr ≠ b.addr := by
  have hc := hs.inside c hc
  rcases hapart with hlt | hlt <;> omega

/-- A block, or 0 and the note that there is none. -/
theorem Heap.Sound.malloc_cases (hs : h.Sound) (n : Int) :
    (h.malloc g n).2.Sound ∧ Frame h (h.malloc g n).2 ∧
      ((h.malloc g n).1 = 0 ∧ (h.malloc g n).2.live = h.live ∧ (h.malloc g n).2.exhausted = true ∨
        0 < (h.malloc g n).1 ∧ (h.malloc g n).2.live = ⟨(h.malloc g n).1, max n 1⟩ :: h.live ∧
          ∀ c ∈ h.live, Block.Apart ⟨(h.malloc g n).1, max n 1⟩ c) := by
  unfold Heap.malloc
  dsimp only
  split
  · next hfit =>
    obtain ⟨hpos, hend, hapart⟩ := hfit
    refine ⟨⟨fun b hb => ?_, List.pairwise_cons.mpr ⟨hapart, hs.apart⟩⟩, ⟨ran_size, fun b hb _ => hs.ran_same hb⟩,
      .inr ⟨hpos, rfl, hapart⟩⟩
    rcases List.mem_cons.mp hb with rfl | hb
    · exact ⟨hpos, by simp only; omega, hend⟩
    · exact hs.ran.inside b hb
  · exact ⟨⟨hs.ran.inside, hs.apart⟩, ⟨ran_size, fun b hb _ => hs.ran_same hb⟩, .inl ⟨rfl, rfl, rfl⟩⟩

/-- What a caller has that does not look for 0, up to the note. -/
theorem Heap.Sound.malloc (hs : h.Sound) (n : Int) :
    (h.malloc g n).2.exhausted = true ∨
      0 < (h.malloc g n).1 ∧ (h.malloc g n).2.live = ⟨(h.malloc g n).1, max n 1⟩ :: h.live ∧
        (∀ c ∈ h.live, Block.Apart ⟨(h.malloc g n).1, max n 1⟩ c) ∧
        (h.malloc g n).2.Sound ∧ Frame h (h.malloc g n).2 := by
  obtain ⟨hsound, hframe, ⟨-, -, hx⟩ | ⟨hpos, hlive, hapart⟩⟩ := hs.malloc_cases (g := g) n
  · exact .inl hx
  · exact .inr ⟨hpos, hlive, hapart, hsound, hframe⟩

theorem Heap.Sound.free (hs : h.Sound) (addr : Int) : (h.free g addr).Sound ∧ Frame h (h.free g addr) := by
  have hs' : Heap.Sound { h with live := h.live.filter fun b => b.addr ≠ addr } :=
    ⟨fun b hb => hs.inside b (List.mem_filter.mp hb).1, hs.apart.filter _⟩
  exact ⟨hs'.ran, hs'.ran_frame.size, fun b _ hb => hs'.ran_same hb⟩

theorem mem_live_free {addr : Int} : b ∈ (h.free g addr).live ↔ b ∈ h.live ∧ b.addr ≠ addr := by
  simp [Heap.free, Heap.ran]

theorem Heap.Sound.apart_of_ne {c : Block} (hs : h.Sound) (hb : b ∈ h.live) (hc : c ∈ h.live) (hne : b.addr ≠ c.addr) :
    b.Apart c :=
  hs.apart.forall hb hc fun h => hne (congrArg Block.addr h)

theorem exhausted_malloc (n : Int) (hx : h.exhausted = true) : (h.malloc g n).2.exhausted = true := by
  unfold Heap.malloc
  dsimp only
  split
  · exact hx
  · rfl

end GuestHeap

end Sqlol

/-
What the arena's pointers denote, over a runtime's whole life.

The cursor only ever moves up: `dropFile` forgets regions, it does not give
their bytes back, and nothing compares the cursor with `ARENA_BYTES`. So the
ranges handed out are sound exactly as long as the sizes asked for fit what
the cursor has left (`Fits`), and the 257th wal-index of a runtime that opens
and closes its database lies behind the arena (`arena_overrun`).

The source's table has no sizes. `Traced` records beside it the size each
region was created with.
-/
import Sqlol.Runs
import Sqlol.ShmArena

namespace Sqlol

namespace ShmArena

variable {M : Type}

/-- The arena, with a note of the size that each key's region was made with. -/
structure Traced (M : Type) where
  arena : ShmArena M
  sizes : String → Int := fun _ => 0

/-- What happens to an arena: the two calls, and the guest writing its memory. -/
inductive Event (M : Type) where
  | map (name : String) (iRegion szRegion bExtend : Int)
  | dropFile (name : String)
  | guest (mem : M)

/-- A call of the arena, or the guest's own use of its memory. -/
def step (memory : Memory M) (s : Traced M) : Event M → Option (Traced M)
  | .map name iRegion szRegion bExtend =>
    let a := (s.arena.map memory name iRegion szRegion bExtend).1
    let key := regionKey name iRegion
    some { arena := a
           sizes := if s.arena.regions.lookup key = none then Function.update s.sizes key szRegion else s.sizes }
  | .dropFile name => some { s with arena := s.arena.dropFile name }
  | .guest mem => some { s with arena := { s.arena with mem } }

/-- The runtime's arena after `arena.base = malloc(ARENA_BYTES)`. -/
def start (base : Int) (mem : M) : Traced M := { arena := { base, mem } }

/-- The bytes `[p, p + n)` and `[q, q + m)` have none in common. -/
def Apart (p n q m : Int) : Prop := p + n ≤ q ∨ q + m ≤ p

/-- `[p, p + sz)` lies in the arena, apart from every region of the table
but the one under `key`. -/
structure RangeOK (base : Int) (s : Traced M) (key : String) (p sz : Int) : Prop where
  low : base ≤ p
  high : p + sz ≤ base + ARENA_BYTES
  apart : ∀ k q, k ≠ key → s.arena.regions.lookup k = some q → Apart p sz q (s.sizes k)

/-- What a caller of `map` relies on: a non-zero pointer denotes a range of
its own in the arena, zeroed when the region is new, and a request that no
range is left for answers 0. -/
def Sound (memory : Memory M) (base : Int) (s : Traced M) : Event M → Prop
  | .map name iRegion szRegion bExtend =>
    let key := regionKey name iRegion
    let (a, ptr) := s.arena.map memory name iRegion szRegion bExtend
    (∀ p, ptr = some p → p ≠ 0 →
      RangeOK base s key p szRegion ∧
      (s.arena.regions.lookup key = none → ∀ x, p ≤ x → x < p + szRegion → memory.byteAt a.mem x = 0)) ∧
    (s.arena.regions.lookup key = none → (∀ p, ¬ RangeOK base s key p szRegion) → ptr = some 0)
  | _ => True

/-- The sizes asked for fit: a known region is asked for with no more than
the bytes it was given, a new one with no more than the cursor has left. -/
def Fits (s : Traced M) : Event M → Prop
  | .map name iRegion szRegion bExtend =>
    0 < szRegion ∧
    (∀ p, s.arena.regions.lookup (regionKey name iRegion) = some p →
      szRegion ≤ roundUp16 (s.sizes (regionKey name iRegion))) ∧
    (s.arena.regions.lookup (regionKey name iRegion) = none → bExtend ≠ 0 →
      s.arena.cursor + szRegion ≤ ARENA_BYTES)
  | _ => True

/-- The regions lie below the cursor, one behind the other. -/
structure Inv (base : Int) (s : Traced M) : Prop where
  base_eq : s.arena.base = base
  cursor_nonneg : 0 ≤ s.arena.cursor
  cursor_le : s.arena.cursor ≤ ARENA_BYTES
  cursor_mod : s.arena.cursor % 16 = 0
  size : ∀ k p, s.arena.regions.lookup k = some p → 0 < s.sizes k ∧ s.sizes k ≤ roundUp16 (s.sizes k)
  low : ∀ k p, s.arena.regions.lookup k = some p → base ≤ p
  high : ∀ k p, s.arena.regions.lookup k = some p → p + roundUp16 (s.sizes k) ≤ base + s.arena.cursor
  apart : ∀ k p l q, s.arena.regions.lookup k = some p → s.arena.regions.lookup l = some q → k ≠ l →
    Apart p (roundUp16 (s.sizes k)) q (roundUp16 (s.sizes l))

theorem inv_start {base : Int} {mem : M} : Inv base (start base mem) where
  base_eq := rfl
  cursor_nonneg := le_refl _
  cursor_le := by simp [start, ARENA_BYTES]
  cursor_mod := rfl
  size _ _ h := by simp [start] at h
  low _ _ h := by simp [start] at h
  high _ _ h := by simp [start] at h
  apart _ _ _ _ h := by simp [start] at h

/-- A smaller table over the same arena. -/
theorem Inv.shrink {base : Int} {s s' : Traced M} (h : Inv base s) (hb : s'.arena.base = s.arena.base)
    (hc : s'.arena.cursor = s.arena.cursor) (hs : s'.sizes = s.sizes)
    (hr : ∀ k p, s'.arena.regions.lookup k = some p → s.arena.regions.lookup k = some p) : Inv base s' where
  base_eq := hb.trans h.base_eq
  cursor_nonneg := hc ▸ h.cursor_nonneg
  cursor_le := hc ▸ h.cursor_le
  cursor_mod := hc ▸ h.cursor_mod
  size k p hk := hs ▸ h.size k p (hr k p hk)
  low k p hk := h.low k p (hr k p hk)
  high k p hk := by rw [hs, hc]; exact h.high k p (hr k p hk)
  apart k p l q hk hl := by rw [hs]; exact h.apart k p l q (hr k p hk) (hr l q hl)

section
variable {memory : Memory M} {base : Int}

/-- A new region that fits, in numbers: where it starts, and where the cursor goes. -/
theorem Inv.new_region (hbase : 0 < base) (htop : base + ARENA_BYTES < 2147483648) {s : Traced M}
    (h : Inv base s) {sz : Int} (h0 : 0 < sz) (hfit : s.arena.cursor + sz ≤ ARENA_BYTES) :
    i32 (s.arena.base + s.arena.cursor) = base + s.arena.cursor ∧
    i32 (base + s.arena.cursor + sz) = base + s.arena.cursor + sz ∧
    i32 (s.arena.cursor + roundUp16 sz) = s.arena.cursor + roundUp16 sz ∧
    sz ≤ roundUp16 sz ∧ s.arena.cursor + roundUp16 sz ≤ ARENA_BYTES ∧
    (s.arena.cursor + roundUp16 sz) % 16 = 0 := by
  have hc0 := h.cursor_nonneg
  have hc1 := h.cursor_le
  have hc16 := h.cursor_mod
  obtain ⟨hle, hlt, hmod⟩ := roundUp16_of_le h0 (by omega)
  have hr : s.arena.cursor + roundUp16 sz ≤ ARENA_BYTES := by
    simp only [ARENA_BYTES] at *; omega
  have hA : (0 : Int) ≤ ARENA_BYTES := by decide
  rw [h.base_eq]
  refine ⟨i32_of_bounds (by omega) (by omega), i32_of_bounds (by omega) (by omega), ?_, hle, hr, by omega⟩
  exact i32_of_bounds (by omega) (by omega)

/-- The range behind the cursor is apart from every region of the table. -/
theorem Inv.rangeOK_new {s : Traced M} (h : Inv base s) {key : String} {sz : Int}
    (hfit : s.arena.cursor + sz ≤ ARENA_BYTES) : RangeOK base s key (base + s.arena.cursor) sz where
  low := by have := h.cursor_nonneg; omega
  high := by omega
  apart k q _ hk := by
    have h1 := h.high k q hk
    have h2 := (h.size k q hk).2
    exact .inr (by omega)

/-- The range of a known region, asked for within its size. -/
theorem Inv.rangeOK_known {s : Traced M} (h : Inv base s) {key : String} {p sz : Int}
    (hk : s.arena.regions.lookup key = some p) (hsz : sz ≤ roundUp16 (s.sizes key)) :
    RangeOK base s key p sz where
  low := h.low key p hk
  high := by
    have h1 := h.high key p hk
    have h2 := h.cursor_le
    omega
  apart k q hne hq := by
    have h2 := (h.size k q hq).2
    rcases h.apart key p k q hk hq (Ne.symm hne) with h1 | h1
    · exact .inl (by omega)
    · exact .inr (by omega)

/-- What creating a region does to the invariant. -/
theorem Inv.insert {s : Traced M} (h : Inv base s) {key : String} {sz : Int} {mem : M} (h0 : 0 < sz)
    (hle : sz ≤ roundUp16 sz) (hr : s.arena.cursor + roundUp16 sz ≤ ARENA_BYTES)
    (hmod : (s.arena.cursor + roundUp16 sz) % 16 = 0) :
    Inv base
      { arena := { base := s.arena.base, cursor := s.arena.cursor + roundUp16 sz, mem
                   regions := s.arena.regions.insert key (base + s.arena.cursor) }
        sizes := Function.update s.sizes key sz } := by
  have hc0 := h.cursor_nonneg
  have old : ∀ k p, k ≠ key → (s.arena.regions.insert key (base + s.arena.cursor)).lookup k = some p →
      s.arena.regions.lookup k = some p := fun k p hk hp => by
    rwa [Table.lookup_insert, if_neg hk] at hp
  have new : ∀ p, (s.arena.regions.insert key (base + s.arena.cursor)).lookup key = some p →
      p = base + s.arena.cursor := fun p hp => by
    rw [Table.lookup_insert, if_pos rfl, Option.some.injEq] at hp
    exact hp.symm
  refine ⟨h.base_eq, by simp only; omega, hr, hmod, fun k p hk => ?_, fun k p hk => ?_, fun k p hk => ?_,
    fun k p l q hk hl hne => ?_⟩
  · by_cases hkk : k = key
    · subst hkk; simp only [Function.update_self]; exact ⟨h0, hle⟩
    · simp only [Function.update_of_ne hkk]; exact h.size k p (old k p hkk hk)
  · by_cases hkk : k = key
    · subst hkk; rw [new p hk]; omega
    · exact h.low k p (old k p hkk hk)
  · by_cases hkk : k = key
    · subst hkk; rw [new p hk]; simp only [Function.update_self]; omega
    · have := h.high k p (old k p hkk hk)
      simp only [Function.update_of_ne hkk]; omega
  · by_cases hkk : k = key
    · subst hkk
      have hl' := old l q (Ne.symm hne) hl
      have := h.high l q hl'
      rw [new p hk]
      simp only [Function.update_of_ne (Ne.symm hne)]
      exact .inr (by omega)
    · by_cases hlk : l = key
      · subst hlk
        have := h.high k p (old k p hkk hk)
        rw [new q hl]
        simp only [Function.update_of_ne hkk]
        exact .inl (by omega)
      · simp only [Function.update_of_ne hkk, Function.update_of_ne hlk]
        exact h.apart k p l q (old k p hkk hk) (old l q hlk hl) hne

/-- A `map` that fits keeps the invariant and answers soundly. -/
theorem Inv.map (hbase : 0 < base) (htop : base + ARENA_BYTES < 2147483648)
    (hfill : memory.FillsWithin base (base + ARENA_BYTES)) {s s' : Traced M} (h : Inv base s)
    {name : String} {iRegion sz bExtend : Int} (hok : Fits s (.map name iRegion sz bExtend))
    (hs : step memory s (.map name iRegion sz bExtend) = some s') :
    Inv base s' ∧ Sound memory base s (.map name iRegion sz bExtend) := by
  obtain ⟨h0, hknown, hnew⟩ := hok
  simp only [step, Option.some.injEq] at hs
  subst hs
  simp only [Sound]
  rcases map_cases memory s.arena name iRegion sz bExtend with ⟨p, hl, heq⟩ | ⟨hl, hx, heq⟩ |
    ⟨hl, hx, hf, -⟩ | ⟨mem, hl, hx, hf, heq⟩
  · rw [heq, if_neg (by simp [hl])]
    refine ⟨h, fun q hq _ => ?_, fun hn => by simp [hl] at hn⟩
    cases hq
    exact ⟨h.rangeOK_known hl (hknown p hl), fun hn => by simp [hl] at hn⟩
  · rw [heq, if_pos hl]
    refine ⟨?_, fun q hq hne => absurd (Option.some.inj hq).symm hne, fun _ _ => rfl⟩
    -- The size noted for an absent key is never read.
    refine ⟨h.base_eq, h.cursor_nonneg, h.cursor_le, h.cursor_mod, fun k p hk => ?_, h.low,
      fun k p hk => ?_, fun k p l q hk hk' hne => ?_⟩
    all_goals
      have hkk : k ≠ regionKey name iRegion := by rintro rfl; simp [hl] at hk
      simp only [Function.update_of_ne hkk]
    · exact h.size k p hk
    · exact h.high k p hk
    · have hll : l ≠ regionKey name iRegion := by rintro rfl; simp [hl] at hk'
      simp only [Function.update_of_ne hll]
      exact h.apart k p l q hk hk' hne
  all_goals
    have hfit := hnew hl hx
    obtain ⟨e1, e2, e3, hle, hr, hmod⟩ := h.new_region hbase htop h0 hfit
    have hc0 := h.cursor_nonneg
    obtain ⟨m', hm', hbytes⟩ := hfill s.arena.mem 0 (base + s.arena.cursor) (base + s.arena.cursor + sz)
      (by omega) (by omega) (by omega)
    rw [e1, e2, hm'] at hf
  · cases hf
  · cases hf
    rw [heq, e1, e3, if_pos hl]
    refine ⟨h.insert h0 hle hr hmod, fun q hq _ => ?_, fun _ hno => ?_⟩
    · cases hq
      refine ⟨h.rangeOK_new hfit, fun _ x hx1 hx2 => ?_⟩
      rw [hbytes, if_pos ⟨hx1, hx2⟩]
    · exact absurd (h.rangeOK_new hfit) (hno _)

theorem Inv.step (hbase : 0 < base) (htop : base + ARENA_BYTES < 2147483648)
    (hfill : memory.FillsWithin base (base + ARENA_BYTES)) {s s' : Traced M} {e : Event M}
    (h : Inv base s) (hok : Fits s e) (hs : step memory s e = some s') : Inv base s' := by
  cases e with
  | map => exact (h.map hbase htop hfill hok hs).1
  | dropFile name =>
    simp only [ShmArena.step, Option.some.injEq] at hs
    subst hs
    refine h.shrink rfl rfl rfl fun k p hk => ?_
    simp only [dropFile, Table.lookup_removeIf] at hk
    split at hk
    · cases hk
    · exact hk
  | guest mem =>
    simp only [ShmArena.step, Option.some.injEq] at hs
    subst hs
    exact h.shrink rfl rfl rfl fun k p hk => hk

/-- **The arena is sound while it lasts.** Over any run of `map` and
`dropFile` calls on any names, regions and sizes, with the guest writing its
memory in between: as long as each size fits what is left, every pointer
denotes a range of its own inside the arena, zeroed when new. -/
theorem arena_run_sound (hbase : 0 < base) (htop : base + ARENA_BYTES < 2147483648)
    (hfill : memory.FillsWithin base (base + ARENA_BYTES)) (mem : M) (events : List (Event M))
    (hok : EveryStep (step memory) Fits (start base mem) events) :
    EveryStep (step memory) (Sound memory base) (start base mem) events := by
  refine everyStep_of_invariant (I := Inv base) (fun s e s' h hf hs => h.step hbase htop hfill hf hs)
    (fun s e h hf => ?_) inv_start hok
  cases e with
  | map => exact (h.map hbase htop hfill hf rfl).2
  | dropFile => trivial
  | guest => trivial

end

/-! ## A concrete memory -/

/-- A flat memory of `size` bytes; `fill` throws outside it. -/
def flat (size : Int) : Memory (Int → UInt8) where
  byteAt m a := m a
  fill m v i j :=
    if 0 ≤ i ∧ i ≤ j ∧ j ≤ size then some fun a => if i ≤ a ∧ a < j then v else m a else none

theorem flat_fillsWithin {size lo hi : Int} (hlo : 0 ≤ lo) (hhi : hi ≤ size) : (flat size).FillsWithin lo hi := by
  intro m v i j hi' hij hj
  exact ⟨_, if_pos ⟨by omega, hij, by omega⟩, fun a => rfl⟩

/-- A region is created, asked for again by a second connection, and
forgotten; the memory starts out dirty. -/
theorem arena_run_sound_share :
    EveryStep (step (flat 33554432)) (Sound (flat 33554432) 65536) (start 65536 fun _ => 255)
      [.map "f" 0 32768 1, .map "f" 0 32768 0, .dropFile "f"] := by
  refine arena_run_sound (by decide) (by decide) (flat_fillsWithin (by decide) (by decide)) _ _
    ⟨⟨by decide, fun p hp => by simp [start] at hp, fun _ _ => by decide⟩, fun s hs => ?_⟩
  simp only [step, Option.some.injEq] at hs
  subst hs
  refine ⟨⟨by decide, fun p _ => ?_, fun _ hx => absurd rfl hx⟩, fun _ _ => ⟨trivial, fun _ _ => trivial⟩⟩
  decide

/-! ## What the cursor never gives back -/

/-- The last connection of the database `"f"` opens and closes it `k` times:
each time the wal-index region is created and then dropped. -/
def reopen : Nat → List (Event (Int → UInt8))
  | 0 => []
  | k + 1 => .map "f" 0 32768 1 :: .dropFile "f" :: reopen k

/-- No region, and the cursor at `c`. -/
structure Emptied (c : Int) (s : Traced (Int → UInt8)) : Prop where
  base_eq : s.arena.base = 65536
  cursor_eq : s.arena.cursor = c
  none_left : ∀ key, s.arena.regions.lookup key = none

/-- What a `map` of an emptied arena answers, wherever the cursor is. -/
theorem Emptied.map {c : Int} {s : Traced (Int → UInt8)} (h : Emptied c s) (h0 : 0 ≤ c)
    (h1 : c ≤ 16777216) :
    ∃ mem, s.arena.map (flat 33554432) "f" 0 32768 1 =
      ({ base := 65536, cursor := c + 32768, mem,
         regions := s.arena.regions.insert (regionKey "f" 0) (65536 + c) }, some (65536 + c)) := by
  have hround : roundUp16 32768 = 32768 := by decide
  refine ⟨fun x => if 65536 + c ≤ x ∧ x < 65536 + c + 32768 then 0 else s.arena.mem x, ?_⟩
  simp only [ShmArena.map, h.none_left, h.base_eq, h.cursor_eq, hround, flat]
  rw [if_neg (by decide), i32_of_bounds (x := 65536 + c) (by omega) (by omega),
    i32_of_bounds (x := 65536 + c + 32768) (by omega) (by omega),
    i32_of_bounds (x := c + 32768) (by omega) (by omega), if_pos (by omega)]

theorem Emptied.reopen {c : Int} {s : Traced (Int → UInt8)} (h : Emptied c s) (h0 : 0 ≤ c) (k : Nat)
    (h1 : c + 32768 * k ≤ 16777216) :
    ∃ s', run (step (flat 33554432)) s (reopen k) = some s' ∧ Emptied (c + 32768 * k) s' := by
  induction k generalizing c s with
  | zero => exact ⟨s, rfl, by simpa using h⟩
  | succ k ih =>
    obtain ⟨mem, hmap⟩ := h.map h0 (by omega)
    simp only [ShmArena.reopen, run, step, hmap, Option.bind_some]
    rw [show c + 32768 * ((k + 1 : Nat) : Int) = c + 32768 + 32768 * k by omega]
    refine ih ⟨rfl, rfl, fun key => ?_⟩ (by omega) (by omega)
    simp only [dropFile, Table.lookup_removeIf, Table.lookup_insert, h.none_left]
    split
    · rfl
    · next hk =>
      refine if_neg ?_
      rintro rfl
      exact hk ((startsWith_regionKey "f" "f" 0).mpr (.inl rfl))

/-- **The 257th wal-index lies behind the arena**: after 256 opens and closes
the cursor stands at the arena's end, and `map` hands out the next 32 KB. -/
theorem arena_overrun :
    ¬ EveryStep (step (flat 33554432)) (Sound (flat 33554432) 65536) (start 65536 fun _ => 0)
      (reopen 256 ++ [.map "f" 0 32768 1]) := by
  intro hall
  have hstart : Emptied 0 (start 65536 fun _ => 0) := ⟨rfl, rfl, fun _ => rfl⟩
  obtain ⟨s, hrun, hs⟩ := hstart.reopen (le_refl 0) 256 (by decide)
  obtain ⟨mem, hmap⟩ := hs.map (by decide) (by decide)
  have hlast := (hall.append hrun).1
  simp only [Sound, hmap] at hlast
  have hsound := hlast.1
  have hhigh := (hsound _ rfl (by decide)).1.high
  simp only [ARENA_BYTES] at hhigh
  omega

end ShmArena

end Sqlol

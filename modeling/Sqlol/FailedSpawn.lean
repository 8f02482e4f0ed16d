/-
What a failed `SqliteWorker.spawn` leaves behind: the child, and the blocks, the
handle and the statement of its `Session`, thrown out of at any of its calls.

What comes behind the constructor of `Session` is covered by `s.close()`, and
everything behind `spawnPthread` by the closing of the child. The constructor
itself is covered by nothing: whatever it throws behind its first `malloc`, the
blocks stay allocated, and a handle that a failed `sqlite3_open_v2` has left stays
open (`failed_spawn_iff`).
-/
import Mathlib.Data.List.Basic
import Sqlol.Prog

namespace Sqlol

namespace FailedSpawn

/-- The blocks of a `Session`; `grown` is the SQL buffer behind its growth. -/
inductive Block where
  | pp
  | buf
  | grown
  deriving DecidableEq

/-- The calls that may throw; those of the warm-up with the number of the attempt. -/
inductive Site where
  | malloc (b : Block)
  /-- The `free` in `sqlPtr`. -/
  | freeOld
  | openV2
  | exec (i : Nat)
  | prepare (i : Nat)
  | step (i : Nat)
  | column (i : Nat)
  | reset (i : Nat)
  | sleep (i : Nat)
  | finalize
  | freeBuf
  | freePp
  | closeV2
  deriving DecidableEq

/-- How `spawnPthread` ends. -/
inductive Pthread where
  | ok
  /-- It throws with no carrier left. -/
  | failed
  /-- It throws with the carrier parked: the wait for `started` has ended before it came. -/
  | parked
  deriving DecidableEq

/-- What is held: blocks that were not freed, a handle that was not closed, a
statement that was not finalized, a child that was not closed. `buf` and `bufCap` are the
session's fields; its other fields are told by what is held. A call that releases something
counts as doing so, even when it throws. -/
structure World where
  held : List Block := []
  handle : Bool := false
  stmt : Bool := false
  child : Bool := false
  buf : Block := .buf
  bufCap : Nat := 0
  deriving DecidableEq

/-- What the guest answers. -/
structure Guest where
  pthread : Pthread
  throws : Site → Bool
  /-- `malloc` has nothing left and gives 0. -/
  null : Block → Bool
  openRc : Int
  /-- There is a handle behind a failed open. -/
  openHandle : Bool
  prepareRc : Nat → Int
  /-- No error and no statement. -/
  prepareNull : Nat → Bool
  stepRc : Nat → Int
  value : Nat → Int

/-- The bytes of a session's first buffer. -/
def SQL_BUF : Nat := 4096

section
variable (g : Guest)

/-- A call that may throw. -/
def call (site : Site) : Prog World Unit := Prog.throwIf (g.throws site)

/-- `malloc`, whose block is held when there is one. -/
def malloc (b : Block) : Prog World Unit := do
  call g (.malloc b)
  Prog.onlyIf (g.null b = false) (Prog.modify fun w => { w with held := b :: w.held })

/-- `free`: the block is held no longer, whether it throws or not. -/
def free (b : Block) (site : Site) : Prog World Unit := do
  Prog.modify fun w => { w with held := w.held.filter (· ≠ b) }
  call g site

/-- For a text of `size` bytes. The accesses to guest memory are in bounds. -/
def sqlPtr (size : Nat) : Prog World Unit := do
  let w ← Prog.get
  Prog.onlyIf (size ≥ w.bufCap) (do
    free g w.buf .freeOld
    Prog.modify fun w => { w with bufCap := max (size + 1) (w.bufCap * 2) }
    malloc g .grown
    Prog.modify fun w => { w with buf := .grown })

/-- The constructor of `Session`, for a path of `path` bytes. -/
def session (path : Nat) : Prog World Unit := do
  malloc g .pp
  malloc g .buf
  Prog.modify fun w => { w with bufCap := SQL_BUF }
  sqlPtr g path
  call g .openV2
  Prog.onlyIf (g.openRc = 0 ∨ g.openHandle = true) (Prog.modify fun w => { w with handle := true })
  Prog.throwIf (g.openRc ≠ 0)

/-- `Session.close`; nothing was bound, so there is no scratch buffer. -/
def close : Prog World Unit := do
  let w ← Prog.get
  Prog.onlyIf (w.stmt = true) (do
    Prog.modify fun w => { w with stmt := false }
    call g .finalize)
  free g w.buf .freeBuf
  free g .pp .freePp
  Prog.modify fun w => { w with handle := false }
  call g .closeV2

/-- `sqlite3_exec` of one of the constructor's texts. -/
def exec (i : Nat) (sql : String) : Prog World Unit := do
  sqlPtr g sql.utf8ByteSize
  call g (.exec i)

/-- The `try` of `query`: the code and the first column. -/
def queryStep (i : Nat) : Prog World (Int × Int) :=
  Prog.tryFinally
    (do
      call g (.step i)
      if g.stepRc i = 100 then do
        call g (.column i)
        pure (0, g.value i)
      else if g.stepRc i = 101 then pure (0, 0)
      else pure (g.stepRc i, 0))
    (call g (.reset i))

/-- `query("SELECT 1")` in attempt `i`. What `errmsg` throws is caught. -/
def query (i : Nat) : Prog World (Int × Int) := do
  let w ← Prog.get
  if w.stmt = true then queryStep g i
  else do
    sqlPtr g "SELECT 1".utf8ByteSize
    call g (.prepare i)
    if g.prepareRc i ≠ 0 ∨ g.prepareNull i = true then pure (g.prepareRc i, 0)
    else do
      Prog.modify fun w => { w with stmt := true }
      queryStep g i

/-- `run`, with `n` attempts left. -/
def run : Nat → Nat → Prog World Int
  | 0, _ => Prog.throw
  | n + 1, i => do
    let r ← query g i
    if r.1 ≠ 5 ∧ r.1 ≠ 15 then pure r.2
    else do
      call g (.sleep i)
      run n (i + 1)

/-- What is done with the session before it is handed out. -/
def warmUp : Prog World Unit := do
  exec g 0 "PRAGMA journal_mode=WAL"
  exec g 1 "PRAGMA synchronous=NORMAL"
  exec g 2 "PRAGMA busy_timeout=5000"
  let long ← run g 200 0
  Prog.throwIf (long ≠ 1)

/-- `rt.spawnPthread()`. -/
def spawnPthread : Prog World Unit := match g.pthread with
  | .ok => Prog.modify fun w => { w with child := true }
  | .failed => Prog.throw
  | .parked => do
    Prog.modify fun w => { w with child := true }
    Prog.throw

/-- `runCatching { rt.closeChild(child) }`: its first call completes `shutdown`. -/
def closeChild : Prog World Unit := Prog.modify fun w => { w with child := false }

/-- `SqliteWorker.spawn`. -/
def spawn (path : Nat) : Prog World Unit := do
  spawnPthread g
  Prog.onThrow
    (do
      session g path
      Prog.onThrow (warmUp g) (close g))
    closeChild

end

/-! ## What is claimed -/

/-- Nothing that was obtained is held. -/
structure GivenBack (w : World) : Prop where
  blocks : w.held = []
  handle : w.handle = false
  stmt : w.stmt = false
  child : w.child = false

instance (w : World) : Decidable (GivenBack w) :=
  decidable_of_iff (w.held = [] ∧ w.handle = false ∧ w.stmt = false ∧ w.child = false)
    ⟨fun ⟨h1, h2, h3, h4⟩ => ⟨h1, h2, h3, h4⟩, fun h => ⟨h.blocks, h.handle, h.stmt, h.child⟩⟩

variable {g : Guest} {path : Nat}

/-- The path does not fit into the first buffer. -/
def Grows (path : Nat) : Prop := path ≥ SQL_BUF

instance (path : Nat) : Decidable (Grows path) := inferInstanceAs (Decidable (path ≥ SQL_BUF))

/-- The SQL buffer behind `sqlPtr(guestPath)`. -/
def lastBuf (path : Nat) : Block := if Grows path then .grown else .buf

/-- The constructor throws with nothing held: at its first `malloc`, or where the
blocks before were null pointers and there is no handle. -/
def NothingHeld (g : Guest) (path : Nat) : Prop :=
  g.throws (.malloc .pp) = true ∨
  (g.null .pp = true ∧
    (g.throws (.malloc .buf) = true ∨
      (Grows path ∧ (g.throws .freeOld = true ∨ g.throws (.malloc .grown) = true)) ∨
      (g.null (lastBuf path) = true ∧
        (g.throws .openV2 = true ∨ (g.openRc ≠ 0 ∧ g.openHandle = false)))))

/-- The constructor returns. -/
def Constructs (g : Guest) (path : Nat) : Prop :=
  g.throws (.malloc .pp) = false ∧ g.throws (.malloc .buf) = false ∧
    (Grows path → g.throws .freeOld = false ∧ g.throws (.malloc .grown) = false) ∧
    g.throws .openV2 = false ∧ g.openRc = 0

/-- The attempt prepares no statement and is followed by another. -/
def Waits (g : Guest) (i : Nat) : Prop :=
  g.throws (.prepare i) = false ∧ (g.prepareRc i = 5 ∨ g.prepareRc i = 15) ∧ g.throws (.sleep i) = false

/-- The text `i` is prepared. -/
def Prepares (g : Guest) (i : Nat) : Prop :=
  g.throws (.prepare i) = false ∧ g.prepareRc i = 0 ∧ g.prepareNull i = false

/-- The warm-up comes to a statement. -/
def Prepared (g : Guest) : Prop :=
  (∀ i < 3, g.throws (.exec i) = false) ∧ ∃ k < 200, Prepares g k ∧ ∀ j < k, Waits g j

/-- `close` gets as far as the handle. -/
def Closes (g : Guest) : Prop :=
  (Prepared g → g.throws .finalize = false) ∧ g.throws .freeBuf = false ∧ g.throws .freePp = false

/-- The step at which the spawn fails is covered. -/
def Covered (g : Guest) (path : Nat) : Prop :=
  g.pthread = .failed ∨ (g.pthread = .ok ∧ (NothingHeld g path ∨ (Constructs g path ∧ Closes g)))

/-! ## The constructor -/

section
variable {w : World} {Q : Unit → World → Prop} {E : World → Prop}

theorem wp_call {site : Site} : (call g site).wp Q E w ↔ if g.throws site = true then E w else Q () w := Prog.wp_throwIf

/-- What is held behind a `malloc`. -/
def gain (g : Guest) (b : Block) (held : List Block) : List Block := if g.null b then held else b :: held

theorem gain_eq_nil {b : Block} {held : List Block} : gain g b held = [] ↔ g.null b = true ∧ held = [] := by
  unfold gain
  cases g.null b <;> simp

theorem of_mem_gain {b b' : Block} {held : List Block} (h : b' ∈ gain g b held) : b' = b ∨ b' ∈ held := by
  unfold gain at h
  split at h
  · exact .inr h
  · exact List.mem_cons.mp h

theorem wp_malloc {b : Block} : (malloc g b).wp Q E w ↔
    if g.throws (.malloc b) = true then E w else Q () { w with held := gain g b w.held } := by
  rw [malloc, Prog.wp_bind, wp_call, Prog.wp_onlyIf, gain]
  cases g.null b <;> simp

theorem wp_free {b : Block} {site : Site} : (free g b site).wp Q E w ↔
    if g.throws site = true then E { w with held := w.held.filter (· ≠ b) }
      else Q () { w with held := w.held.filter (· ≠ b) } := by
  rw [free, Prog.wp_bind, Prog.wp_modify, wp_call]

/-- A text that fits. -/
theorem wp_sqlPtr_fits {size : Nat} (h : size < w.bufCap) : (sqlPtr g size).wp Q E w ↔ Q () w := by
  rw [sqlPtr, Prog.wp_bind, Prog.wp_get, Prog.wp_onlyIf, if_neg (Nat.not_le.mpr h)]

theorem wp_sqlPtr_grows {size : Nat} (h : w.bufCap ≤ size) : (sqlPtr g size).wp Q E w ↔
    if g.throws .freeOld = true then E { w with held := w.held.filter (· ≠ w.buf) }
    else if g.throws (.malloc .grown) = true then
      E { w with held := w.held.filter (· ≠ w.buf), bufCap := max (size + 1) (w.bufCap * 2) }
    else Q () { w with
      held := gain g .grown (w.held.filter (· ≠ w.buf))
      bufCap := max (size + 1) (w.bufCap * 2)
      buf := .grown } := by
  rw [sqlPtr, Prog.wp_bind, Prog.wp_get, Prog.wp_onlyIf, if_pos h, Prog.wp_bind, wp_free, Prog.wp_bind, Prog.wp_modify,
    Prog.wp_bind, wp_malloc, Prog.wp_modify]

end

/-- A session is open: a handle, and at most its two blocks. -/
structure Opened (path : Nat) (w : World) : Prop where
  handle : w.handle = true
  stmt : w.stmt = false
  child : w.child = true
  buf : w.buf = lastBuf path
  bufCap : SQL_BUF ≤ w.bufCap
  held : ∀ b ∈ w.held, b = lastBuf path ∨ b = .pp

/-- The constructor has thrown. -/
structure Thrown (g : Guest) (path : Nat) (w : World) : Prop where
  stmt : w.stmt = false
  child : w.child = true
  not_constructs : ¬ Constructs g path
  left_iff : (w.held = [] ∧ w.handle = false) ↔ NothingHeld g path

/-- From the open on, with these blocks behind it. -/
theorem open_spec {w : World} (hcap : SQL_BUF ≤ w.bufCap) (hbuf : w.buf = lastBuf path)
    (hstmt : w.stmt = false) (hchild : w.child = true) (hhandle : w.handle = false)
    (hheld : w.held = gain g (lastBuf path) (gain g .pp []))
    (hpp : g.throws (.malloc .pp) = false) (hmalloc : g.throws (.malloc .buf) = false)
    (hgrow : Grows path → g.throws .freeOld = false ∧ g.throws (.malloc .grown) = false) :
    (do
      call g .openV2
      Prog.onlyIf (g.openRc = 0 ∨ g.openHandle = true) (Prog.modify fun w => { w with handle := true })
      Prog.throwIf (g.openRc ≠ 0) : Prog World Unit).wp
      (fun _ s => Constructs g path ∧ Opened path s) (Thrown g path) w := by
  have hnil : w.held = [] ↔ g.null .pp = true ∧ g.null (lastBuf path) = true := by
    rw [hheld, gain_eq_nil, gain_eq_nil]
    tauto
  have hnothing : NothingHeld g path ↔ g.null .pp = true ∧ g.null (lastBuf path) = true ∧
      (g.throws .openV2 = true ∨ (g.openRc ≠ 0 ∧ g.openHandle = false)) := by
    have hno : ¬ (Grows path ∧ (g.throws .freeOld = true ∨ g.throws (.malloc .grown) = true)) := by
      rintro ⟨h, h' | h'⟩
      · rw [(hgrow h).1] at h'
        cases h'
      · rw [(hgrow h).2] at h'
        cases h'
    simp only [NothingHeld, hpp, hmalloc, hno, Bool.false_eq_true, false_or]
  rw [Prog.wp_bind, wp_call]
  split
  · next hopen =>
    refine ⟨hstmt, hchild, fun h => ?_, ?_⟩
    · rw [h.2.2.2.1] at hopen
      cases hopen
    · rw [hnil, hnothing]
      simp only [hhandle, hopen, true_or, and_true]
  · next hopen =>
    have hopen : g.throws .openV2 = false := Bool.not_eq_true _ ▸ hopen
    rw [Prog.wp_bind, Prog.wp_onlyIf, Prog.wp_modify, Prog.wp_throwIf, Prog.wp_throwIf]
    by_cases hrc : g.openRc = 0
    · simp only [hrc, true_or, if_true, ne_eq, not_true_eq_false, decide_false, Bool.false_eq_true, if_false]
      refine ⟨⟨hpp, hmalloc, hgrow, hopen, hrc⟩, rfl, hstmt, hchild, hbuf, hcap, fun b hb => ?_⟩
      have hb : b ∈ gain g (lastBuf path) (gain g .pp []) := hheld ▸ hb
      exact (of_mem_gain hb).imp_right fun h => (of_mem_gain h).resolve_right List.not_mem_nil
    · have hnot : ¬ Constructs g path := fun h => hrc h.2.2.2.2
      simp only [hrc, false_or, ne_eq, not_false_eq_true, decide_true, if_true]
      cases hh : g.openHandle with
      | true =>
        refine ⟨hstmt, hchild, hnot, ?_⟩
        rw [hnothing]
        simp [hopen, hh]
      | false =>
        refine ⟨hstmt, hchild, hnot, ?_⟩
        rw [hnothing, hnil]
        simp [hopen, hh, hrc, hhandle]

theorem gain_filter {b : Block} (hb : b ≠ .pp) :
    (gain g b (gain g .pp [])).filter (· ≠ b) = gain g .pp [] := by
  have hpp : (gain g .pp []).filter (· ≠ b) = gain g .pp [] := by
    unfold gain
    split
    · rfl
    · simp [Ne.symm hb]
  rw [gain]
  split
  · exact hpp
  · simpa using hpp

theorem session_spec {w : World} (hw : w = { child := true }) :
    (session g path).wp (fun _ s => Constructs g path ∧ Opened path s) (Thrown g path) w := by
  subst hw
  have hpp_nil : gain g .pp [] = [] ↔ g.null .pp = true := by simp [gain_eq_nil]
  rw [session, Prog.wp_bind, wp_malloc]
  split
  · next hpp =>
    refine ⟨rfl, rfl, fun h => ?_, iff_of_true ⟨rfl, rfl⟩ (.inl hpp)⟩
    rw [h.1] at hpp
    cases hpp
  rename_i hpp
  have hpp : g.throws (.malloc .pp) = false := Bool.not_eq_true _ ▸ hpp
  rw [Prog.wp_bind, wp_malloc]
  split
  · next hbuf =>
    refine ⟨rfl, rfl, fun h => ?_, ?_⟩
    · rw [h.2.1] at hbuf
      cases hbuf
    · simp [hpp_nil, NothingHeld, hpp, hbuf]
  rename_i hbuf
  have hbuf : g.throws (.malloc .buf) = false := Bool.not_eq_true _ ▸ hbuf
  rw [Prog.wp_bind, Prog.wp_modify, Prog.wp_bind]
  by_cases hgrows : Grows path
  · -- The old buffer is freed, so only `pp` is held where the growth fails.
    have hfails : g.throws .freeOld = true ∨ g.throws (.malloc .grown) = true →
        ¬ Constructs g path ∧ (NothingHeld g path ↔ g.null .pp = true) := by
      intro h
      constructor
      · intro hc
        obtain ⟨h1, h2⟩ := hc.2.2.1 hgrows
        rw [h1, h2] at h
        simp at h
      · simp only [NothingHeld, hpp, hbuf, hgrows, h, Bool.false_eq_true, false_or, true_or, and_true]
    have hleft : (gain g .buf (gain g .pp [])).filter (· ≠ .buf) = gain g .pp [] := gain_filter (by decide)
    rw [wp_sqlPtr_grows hgrows]
    simp only [hleft]
    split
    · next hfree =>
      obtain ⟨hnot, hnothing⟩ := hfails (.inl hfree)
      exact ⟨rfl, rfl, hnot, by rw [hnothing, ← hpp_nil]; exact and_iff_left rfl⟩
    split
    · next hgrown =>
      obtain ⟨hnot, hnothing⟩ := hfails (.inr hgrown)
      exact ⟨rfl, rfl, hnot, by rw [hnothing, ← hpp_nil]; exact and_iff_left rfl⟩
    · next hfree hgrown =>
      simp only [Bool.not_eq_true] at hfree hgrown
      have hlast : lastBuf path = .grown := if_pos hgrows
      exact open_spec (Nat.le_trans (by decide) (Nat.le_max_right _ _)) hlast.symm rfl rfl rfl (by rw [hlast]) hpp hbuf
        fun _ => ⟨hfree, hgrown⟩
  · have hlast : lastBuf path = .buf := if_neg hgrows
    rw [wp_sqlPtr_fits (Nat.not_le.mp hgrows)]
    exact open_spec (Nat.le_refl _) hlast.symm rfl rfl rfl (by rw [hlast]) hpp hbuf fun h => absurd h hgrows

/-! ## The warm-up -/

theorem call_keeps (site : Site) (P : World → Prop) : (call g site).Keeps P := Prog.keeps_throwIf _

theorem queryStep_keeps (i : Nat) (P : World → Prop) : (queryStep g i).Keeps P := by
  refine Prog.Keeps.tryFinally ((call_keeps _ _).bind fun _ => ?_) (call_keeps _ _)
  split
  · exact (call_keeps _ _).bind fun _ => Prog.keeps_pure _
  · split <;> exact Prog.keeps_pure _

/-- A statement that was prepared before is used again. -/
theorem run_cached {w : World} (hw : w.stmt = true) : ∀ n i, (run g n i).Keeps (· = w) := by
  have hquery : ∀ i, (query g i).Keeps (· = w) := by
    intro i s hs
    subst hs
    rw [query, Prog.wp_bind, Prog.wp_get, if_pos hw]
    exact queryStep_keeps i _ s rfl
  intro n
  induction n with
  | zero => exact fun _ _ h => h
  | succ n ih =>
    intro i
    refine (hquery i).bind fun r => ?_
    split
    · exact Prog.keeps_pure _
    · exact (call_keeps _ _).bind fun _ => ih (i + 1)

/-- One of `n` attempts from `i` on prepares a statement. -/
def Comes (g : Guest) (i n : Nat) : Prop := ∃ k, i ≤ k ∧ k < i + n ∧ Prepares g k ∧ ∀ j, i ≤ j → j < k → Waits g j

theorem not_comes_zero (i : Nat) : ¬ Comes g i 0 := fun ⟨k, hle, hlt, _⟩ => by omega

theorem comes_succ (i n : Nat) : Comes g i (n + 1) ↔ Prepares g i ∨ (Waits g i ∧ Comes g (i + 1) n) := by
  constructor
  · intro ⟨k, hle, hlt, hk, hwaits⟩
    by_cases hik : i = k
    · exact .inl (hik ▸ hk)
    · exact .inr ⟨hwaits i (Nat.le_refl i) (by omega), k, by omega, by omega, hk, fun j hj => hwaits j (by omega)⟩
  · rintro (h | ⟨h, k, hle, hlt, hk, hwaits⟩)
    · exact ⟨i, Nat.le_refl i, by omega, h, fun j hj hji => by omega⟩
    · refine ⟨k, by omega, by omega, hk, fun j hj hjk => ?_⟩
      by_cases hji : j = i
      · exact hji ▸ h
      · exact hwaits j (by omega) hjk

/-- Only the statement has changed, and there is one exactly when `c`. -/
def After (w : World) (c : Prop) (s : World) : Prop := s = { w with stmt := s.stmt } ∧ (s.stmt = true ↔ c)

theorem after_same {w : World} {c : Prop} (hw : w.stmt = false) (hc : ¬ c) : After w c w :=
  ⟨rfl, by simp [hw, hc]⟩

theorem after_cached {w s : World} {c : Prop} (hs : s = { w with stmt := true }) (hc : c) : After w c s := by
  subst hs
  exact ⟨rfl, iff_of_true rfl hc⟩

theorem run_spec : ∀ (n i : Nat) {w : World}, w.stmt = false → SQL_BUF ≤ w.bufCap →
    (run g n i).wp (fun _ => After w (Comes g i n)) (After w (Comes g i n)) w := by
  intro n
  induction n with
  | zero => exact fun i w hw _ => after_same hw (not_comes_zero i)
  | succ n ih =>
    intro i w hw hcap
    have hfits : "SELECT 1".utf8ByteSize < w.bufCap := Nat.lt_of_lt_of_le (by decide) hcap
    rw [run, Prog.wp_bind, query, Prog.wp_bind, Prog.wp_get, if_neg (by simp [hw]), Prog.wp_bind, wp_sqlPtr_fits hfits,
      Prog.wp_bind, wp_call]
    split
    · next hthrows =>
      refine after_same hw fun h => ?_
      rcases (comes_succ i n).mp h with h | h
      · rw [h.1] at hthrows
        cases hthrows
      · rw [h.1.1] at hthrows
        cases hthrows
    · next hprepare =>
      have hprepare : g.throws (.prepare i) = false := Bool.not_eq_true _ ▸ hprepare
      split
      · next hnone =>
        -- No statement: the attempt is the last one, or it waits.
        have hnot : ¬ Prepares g i := fun h => by simp [h.2.1, h.2.2] at hnone
        rw [Prog.wp_pure]
        split
        · next hrc =>
          refine after_same hw fun h => ?_
          obtain ⟨hwaits, -⟩ := ((comes_succ i n).mp h).resolve_left hnot
          rcases hwaits.2.1 with h5 | h15
          · exact hrc.1 h5
          · exact hrc.2 h15
        · next hrc =>
          rw [Prog.wp_bind, wp_call]
          split
          · next hsleep =>
            refine after_same hw fun h => ?_
            obtain ⟨hwaits, -⟩ := ((comes_succ i n).mp h).resolve_left hnot
            rw [hwaits.2.2] at hsleep
            cases hsleep
          · next hsleep =>
            have hwaits : Waits g i := by
              refine ⟨hprepare, ?_, Bool.not_eq_true _ ▸ hsleep⟩
              simp only [ne_eq, not_and_or, not_not] at hrc
              exact hrc
            have hcomes : Comes g i (n + 1) ↔ Comes g (i + 1) n := by
              rw [comes_succ]
              exact ⟨fun h => (h.resolve_left hnot).2, fun h => .inr ⟨hwaits, h⟩⟩
            rw [hcomes]
            exact ih (i + 1) hw hcap
      · next hsome =>
        have hcomes : Comes g i (n + 1) := (comes_succ i n).mpr (.inl ⟨hprepare, by simpa using hsome⟩)
        have hcached : ∀ s : World, s = { w with stmt := true } → After w (Comes g i (n + 1)) s :=
          fun s hs => after_cached hs hcomes
        rw [Prog.wp_bind, Prog.wp_modify]
        refine Prog.wp_mono (queryStep_keeps i (· = { w with stmt := true }) _ rfl) (fun r s hs => ?_) hcached
        split
        · exact hcached s hs
        · have hrest : Prog.Keeps (· = { w with stmt := true }) (do
              call g (.sleep i)
              run g n (i + 1)) := (call_keeps _ _).bind fun _ => run_cached rfl n (i + 1)
          exact Prog.wp_mono (hrest s hs) (fun _ => hcached) hcached

theorem comes_all : Comes g 0 200 ↔ ∃ k < 200, Prepares g k ∧ ∀ j < k, Waits g j := by
  constructor
  · exact fun ⟨k, _, hlt, hk, hwaits⟩ => ⟨k, by omega, hk, fun j => hwaits j (Nat.zero_le j)⟩
  · exact fun ⟨k, hlt, hk, hwaits⟩ => ⟨k, Nat.zero_le k, by omega, hk, fun j _ => hwaits j⟩

theorem exec_spec {w : World} {i : Nat} {sql : String} {Q : Unit → World → Prop} {E : World → Prop}
    (hsql : sql.utf8ByteSize < w.bufCap) :
    (exec g i sql).wp Q E w ↔ if g.throws (.exec i) = true then E w else Q () w := by
  rw [exec, Prog.wp_bind, wp_sqlPtr_fits hsql, wp_call]

theorem warmUp_spec {w : World} (hw : w.stmt = false) (hcap : SQL_BUF ≤ w.bufCap) :
    (warmUp g).wp (fun _ _ => True) (After w (Prepared g)) w := by
  have hthrows : ∀ i < 3, g.throws (.exec i) = true → After w (Prepared g) w := fun i hi h =>
    after_same hw fun hprep => by
      rw [hprep.1 i hi] at h
      cases h
  rw [warmUp, Prog.wp_bind, exec_spec (Nat.lt_of_lt_of_le (by decide) hcap)]
  split
  · next h => exact hthrows 0 (by decide) h
  rename_i h0
  rw [Prog.wp_bind, exec_spec (Nat.lt_of_lt_of_le (by decide) hcap)]
  split
  · next h => exact hthrows 1 (by decide) h
  rename_i h1
  rw [Prog.wp_bind, exec_spec (Nat.lt_of_lt_of_le (by decide) hcap)]
  split
  · next h => exact hthrows 2 (by decide) h
  rename_i h2
  have hprep : Comes g 0 200 ↔ Prepared g := by
    rw [comes_all, Prepared]
    simp only [Bool.not_eq_true] at h0 h1 h2
    refine (and_iff_right fun i hi => ?_).symm
    match i, hi with
    | 0, _ => exact h0
    | 1, _ => exact h1
    | 2, _ => exact h2
  have hrun := run_spec (g := g) 200 0 hw hcap
  rw [hprep] at hrun
  refine Prog.wp_bind.mpr (Prog.wp_mono hrun (fun long s hs => ?_) fun s hs => hs)
  rw [Prog.wp_throwIf]
  split
  · exact hs
  · trivial

/-! ## The end of a spawn that failed -/

/-- The session holds nothing. -/
def SessionFree (s : World) : Prop := s.held = [] ∧ s.handle = false ∧ s.stmt = false

/-- `close` on a session that was opened. -/
theorem close_spec {w : World} (hhandle : w.handle = true) (hheld : ∀ b ∈ w.held, b = w.buf ∨ b = .pp) :
    let P := fun s : World => s.child = w.child ∧ (SessionFree s ↔
      (w.stmt = true → g.throws .finalize = false) ∧ g.throws .freeBuf = false ∧ g.throws .freePp = false)
    (close g).wp (fun _ => P) P w := by
  intro P
  have hopen : ∀ {s : World}, s.handle = true → s.child = w.child →
      ¬ ((w.stmt = true → g.throws .finalize = false) ∧ g.throws .freeBuf = false ∧ g.throws .freePp = false) → P s :=
    fun hs hchild hnot => ⟨hchild, iff_of_false (fun h => by rw [h.2.1] at hs; cases hs) hnot⟩
  have hempty : (w.held.filter (· ≠ w.buf)).filter (· ≠ .pp) = [] := by
    rw [List.filter_eq_nil_iff]
    intro b hb
    obtain ⟨hmem, hne⟩ := List.mem_filter.mp hb
    simp only [ne_eq, decide_not, Bool.not_eq_true', decide_eq_false_iff_not] at hne
    simpa using (hheld b hmem).resolve_left hne
  -- The rest of `close`, behind the statement.
  have hrest : ∀ s : World, s.handle = true → s.child = w.child → s.held = w.held → s.stmt = false →
      (w.stmt = true → g.throws .finalize = false) →
      (do
        free g w.buf .freeBuf
        free g .pp .freePp
        Prog.modify fun w => { w with handle := false }
        call g .closeV2 : Prog World Unit).wp (fun _ => P) P s := by
    intro s hs hchild hsheld hstmt hfinalize
    rw [Prog.wp_bind, wp_free]
    split
    · next h => exact hopen hs hchild fun hc => by rw [hc.2.1] at h; cases h
    rename_i hbuf
    rw [Prog.wp_bind, wp_free]
    split
    · next h => exact hopen hs hchild fun hc => by rw [hc.2.2] at h; cases h
    rename_i hpp
    rw [Prog.wp_bind, Prog.wp_modify]
    refine call_keeps _ P _ ⟨hchild, iff_of_true ⟨?_, rfl, hstmt⟩ ⟨hfinalize, ?_, ?_⟩⟩
    · change (s.held.filter (· ≠ w.buf)).filter (· ≠ .pp) = []
      rw [hsheld, hempty]
    · exact Bool.not_eq_true _ ▸ hbuf
    · exact Bool.not_eq_true _ ▸ hpp
  rw [close, Prog.wp_bind, Prog.wp_get, Prog.wp_bind, Prog.wp_onlyIf]
  cases hstmt : w.stmt with
  | false =>
    rw [if_neg (by decide)]
    exact hrest w hhandle rfl rfl hstmt fun h => by rw [hstmt] at h; cases h
  | true =>
    rw [if_pos rfl, Prog.wp_bind, Prog.wp_modify, wp_call]
    split
    · next h => exact hopen hhandle rfl fun hc => by rw [hc.1 hstmt] at h; cases h
    · next h => exact hrest _ hhandle rfl rfl rfl fun _ => Bool.not_eq_true _ ▸ h

theorem not_constructs_of_nothingHeld (h : NothingHeld g path) : ¬ Constructs g path := by
  intro ⟨hpp, hbuf, hgrow, hopen, hrc⟩
  rcases h with h | ⟨-, h | ⟨hgrows, h | h⟩ | ⟨-, h | h⟩⟩
  · rw [hpp] at h
    cases h
  · rw [hbuf] at h
    cases h
  · rw [(hgrow hgrows).1] at h
    cases h
  · rw [(hgrow hgrows).2] at h
    cases h
  · rw [hopen] at h
    cases h
  · exact h.1 hrc

/-- Behind `spawnPthread`, when it throws: the session is free exactly when the step was covered. -/
theorem spawned_spec {w : World} (hw : w = { child := true }) :
    (do
      session g path
      Prog.onThrow (warmUp g) (close g) : Prog World Unit).wp (fun _ _ => True)
      (fun s => SessionFree s ↔ NothingHeld g path ∨ (Constructs g path ∧ Closes g)) w := by
  refine Prog.wp_bind.mpr (Prog.wp_mono (session_spec hw) ?_ ?_)
  · intro _ s ⟨hconstructs, hopened⟩
    have hcovered : NothingHeld g path ∨ (Constructs g path ∧ Closes g) ↔ Closes g :=
      ⟨fun h => (h.resolve_left fun hn => not_constructs_of_nothingHeld hn hconstructs).2, fun h => .inr
        ⟨hconstructs, h⟩⟩
    rw [hcovered]
    refine Prog.wp_onThrow.mpr (Prog.wp_mono (warmUp_spec hopened.stmt hopened.bufCap) (fun _ _ _ => trivial) ?_)
    intro s' ⟨hs', hprep⟩
    have hclose := close_spec (g := g) (w := s') (by rw [hs']; exact hopened.handle)
      (by rw [hs']; exact hopened.buf ▸ hopened.held)
    rw [hprep] at hclose
    exact Prog.wp_mono hclose (fun _ _ h => h.2) fun _ h => h.2
  · intro s hthrown
    have hnot : ¬ (Constructs g path ∧ Closes g) := fun h => hthrown.not_constructs h.1
    rw [or_iff_left hnot, ← hthrown.left_iff]
    exact ⟨fun h => ⟨h.1, h.2.1⟩, fun h => ⟨h.1, h.2, hthrown.stmt⟩⟩

/-- **A spawn that throws has given back everything exactly when it failed before
there was a carrier, or in the constructor with nothing held, or behind the
constructor with `close` getting as far as the handle.** -/
theorem failed_spawn_iff (g : Guest) (path : Nat) (hfail : (spawn g path {}).1 = none) :
    GivenBack (spawn g path {}).2 ↔ Covered g path := by
  have hspec : (spawn g path).wp (fun _ _ => True) (fun s => GivenBack s ↔ Covered g path) {} := by
    unfold spawn spawnPthread Covered
    rw [Prog.wp_bind]
    cases g.pthread with
    | failed => exact iff_of_true ⟨rfl, rfl, rfl, rfl⟩ (.inl rfl)
    | parked =>
      refine iff_of_false (fun h => ?_) (by simp)
      cases h.child
    | ok =>
      rw [Prog.wp_modify]
      refine Prog.wp_onThrow.mpr (Prog.wp_mono (spawned_spec rfl) (fun _ _ _ => trivial) fun s hs => ?_)
      change GivenBack { s with child := false } ↔ _
      simp only [reduceCtorEq, false_or, true_and, ← hs]
      exact ⟨fun h => ⟨h.blocks, h.handle, h.stmt⟩, fun h => ⟨h.1, h.2.1, h.2.2, rfl⟩⟩
  rw [Prog.wp] at hspec
  split at hspec
  · next heq => rw [heq] at hfail; cases hfail
  · next heq => rw [heq]; exact hspec

/-- A guest on which everything goes well. -/
def quiet : Guest where
  pthread := .ok
  throws _ := false
  null _ := false
  openRc := 0
  openHandle := true
  prepareRc _ := 0
  prepareNull _ := false
  stepRc _ := 100
  value _ := 1

/-- The second PRAGMA throws: everything is given back. -/
theorem failed_spawn_pragma : GivenBack (spawn { quiet with throws := (· == .exec 1) } 9 {}).2 ↔
    Covered { quiet with throws := (· == .exec 1) } 9 :=
  failed_spawn_iff { quiet with throws := (· == .exec 1) } 9 (by decide)

/-- `SQLITE_CANTOPEN`: two blocks and the handle are left. -/
theorem failed_spawn_cantopen : (spawn { quiet with openRc := 14 } 9 {}).1 = none ∧
    (spawn { quiet with openRc := 14 } 9 {}).2.held = [.buf, .pp] ∧
    (spawn { quiet with openRc := 14 } 9 {}).2.handle = true ∧
    ¬ GivenBack (spawn { quiet with openRc := 14 } 9 {}).2 := by
  decide

end FailedSpawn

end Sqlol

/-
The bindings of a session's statements, in the guest's memory.

`Statements` binds a value; here the values go through the memory. `bindOne`
puts the bytes of a text or a blob into the session's one scratch block, which
`scratch` reuses and sometimes replaces, and SQLite copies them into a block of
its own; `decodeRows` reads them back by address and length. All statements are
a `SELECT ?,?,...,?`, whose row is its parameters.

What a session rests on is `Sound`: the scratch block and the copies are
blocks of the heap, no two of them the same. `decodeRows_returns` is the way
back: a row of the `value`s that the copies hold.
-/
import Sqlol.GuestHeap
import Sqlol.Statements

namespace Sqlol

namespace BindRoundTrip

open BulkMemory GuestHeap
open Statements (Value Param Cursor SqliteRow ROW DONE RANGE_RC MISUSE_RC)

/-- A parameter as the statement keeps it. -/
inductive Cell where
  | null
  | long (n : Int)
  | double (x : Float)
  | text (addr : Int) (len : Nat)
  | blob (addr : Int) (len : Nat)

/-- The block with the copy. -/
def Cell.block : Cell → Option Block
  | .text addr len | .blob addr len => some ⟨addr, max len 1⟩
  | _ => none

/-- As `sqlite3_column_type` has it. -/
def Cell.type : Cell → Nat
  | .long _ => 1
  | .double _ => 2
  | .text _ _ => 3
  | .blob _ _ => 4
  | .null => 5

/-- The guest's heap, the session's scratch block, and what the statements have bound. -/
structure State where
  heap : Heap
  bindBuf : Int := 0
  bindCap : Int := 0
  /-- The parameters of each statement, from 1 on. -/
  cells : Nat → Nat → Cell := fun _ _ => .null
  cursor : Nat → Cursor := fun _ => .reset

/-- What is taken of SQLite and of the statements, beside the heap. -/
structure Guest extends GuestHeap.Guest where
  /-- The memory when the session begins. -/
  memory : Memory
  /-- How many `?` a statement selects. -/
  count : Nat → Nat
  columnName : Nat → Nat → String
  malformed : List UInt8 → String
  /-- How many rows the JVM's heap holds beside the first. -/
  heapRows : Nat

/-- A method of the session. -/
abbrev Op := Prog State

variable (g : Guest)

/-- The state when the session begins. -/
def start : State where
  heap := { mem := g.memory }

/-! ## The guest's calls -/

/-- `sqlite3_malloc`. -/
def malloc (n : Int) : Op Int := fun s =>
  (some (s.heap.malloc g.toGuest n).1, { s with heap := (s.heap.malloc g.toGuest n).2 })

/-- `sqlite3_free`. -/
def free (addr : Int) : Op Unit := Prog.modify fun s => { s with heap := s.heap.free g.toGuest addr }

/-- A call that hands out and takes back no block. -/
def call : Op Unit := Prog.modify fun s => { s with heap := s.heap.ran g.toGuest }

/-- The session's own access to the memory. -/
def onMem {α : Type} (p : Prog Memory α) : Op α :=
  Prog.within (fun s => s.heap.mem) (fun s m => { s with heap := { s.heap with mem := m } }) p

/-- Another cell for a parameter. -/
def State.put (s : State) (k i : Nat) (c : Cell) : State :=
  { s with cells := Function.update s.cells k (Function.update (s.cells k) i c) }

/-- Another cell for a parameter. -/
def setCell (k i : Nat) (c : Cell) : Op Unit := Prog.modify fun s => s.put k i c

/-- Another place of the cursor. -/
def setCursor (k : Nat) (c : Cursor) : Op Unit :=
  Prog.modify fun s => { s with cursor := Function.update s.cursor k c }

/-- The parameter is NULL, and its copy free again. -/
def unbind (k i : Nat) : Op Unit := do
  match ((← Prog.get).cells k i).block with
  | some b => free g b.addr
  | none => pure ()
  setCell k i .null

/-- What the binds have in common. -/
def sqlite3Bind (k i : Nat) (put : Op Int) : Op Int := do
  let s ← Prog.get
  if i = 0 ∨ g.count k < i then pure RANGE_RC
  else if s.cursor k ≠ .reset then pure MISUSE_RC
  else do
    unbind g k i
    put

/-- The parameter is bound. -/
def putCell (k i : Nat) (c : Cell) : Op Int := do
  setCell k i c
  pure 0

/-- `SQLITE_NOMEM`. -/
def NOMEM_RC : Int := 7

/-- The copy, in the block at `q`. -/
def storeCopy (k i : Nat) (cell : Int → Nat → Cell) (p : Int) (n : Nat) (q : Int) : Op Int :=
  if q = 0 then pure NOMEM_RC
  else do
    onMem fun m => (some (), store m q (m.bytes p n))
    putCell k i (cell q n)

/-- `SQLITE_TRANSIENT`: the bytes are copied before the call returns. A null pointer is NULL. -/
def putCopy (k i : Nat) (cell : Int → Nat → Cell) (p : Int) (n : Nat) : Op Int :=
  if p = 0 then pure 0
  else do
    let q ← malloc g n
    storeCopy k i cell p n q

/-- `sqlite3_bind_null`. -/
def sqlite3BindNull (k i : Nat) : Op Int := sqlite3Bind g k i (putCell k i .null)

/-- `sqlite3_bind_int64`. -/
def sqlite3BindInt64 (k i : Nat) (n : Int) : Op Int := sqlite3Bind g k i (putCell k i (.long n))

/-- `sqlite3_bind_double`: a NaN is bound as NULL. -/
def sqlite3BindDouble (k i : Nat) (x : Float) : Op Int :=
  sqlite3Bind g k i (putCell k i (if x.isNaN then .null else .double x))

/-- `sqlite3_bind_text` of `n` bytes at `p`, with `SQLITE_TRANSIENT`. -/
def sqlite3BindText (k i : Nat) (p : Int) (n : Nat) : Op Int := sqlite3Bind g k i (putCopy g k i .text p n)

/-- `sqlite3_bind_blob` of `n` bytes at `p`, with `SQLITE_TRANSIENT`. -/
def sqlite3BindBlob (k i : Nat) (p : Int) (n : Nat) : Op Int := sqlite3Bind g k i (putCopy g k i .blob p n)

/-- One row, and the end. -/
def sqlite3Step (k : Nat) : Op Int := do
  call g
  if (← Prog.get).cursor k = .running then do
    setCursor k .ended
    pure DONE
  else do
    setCursor k .running
    pure ROW

/-- The cursor goes back; the bindings stay. -/
def sqlite3Reset (k : Nat) : Op Unit := setCursor k .reset

/-- The parameters up to the `n`-th. -/
def unbindTo (k : Nat) : Nat → Op Unit
  | 0 => pure ()
  | n + 1 => do
    unbindTo k n
    unbind g k (n + 1)

/-- Every parameter is NULL, its copy freed. -/
def sqlite3ClearBindings (k : Nat) : Op Unit := unbindTo g k (g.count k)

/-- The row shows the parameters. -/
def column (k i : Nat) (s : State) : Cell :=
  if s.cursor k = .running ∧ i < g.count k then s.cells k (i + 1) else .null

/-- A call that reads a column of the row. -/
def readColumn {α : Type} (k i : Nat) (f : Cell → α) : Op α := do
  call g
  pure (f (column g k i (← Prog.get)))

/-- `sqlite3_column_type`. -/
def sqlite3ColumnType (k i : Nat) : Op Nat := readColumn g k i Cell.type

/-- `sqlite3_column_int64`, of a column whose type is INTEGER. -/
def sqlite3ColumnInt64 (k i : Nat) : Op Int := readColumn g k i fun
  | .long n => n
  | _ => 0

/-- `sqlite3_column_double`, of a column whose type is FLOAT. -/
def sqlite3ColumnDouble (k i : Nat) : Op Float := readColumn g k i fun
  | .double x => x
  | _ => 0

/-- `sqlite3_column_text`: where the text is. -/
def sqlite3ColumnText (k i : Nat) : Op Int := readColumn g k i fun
  | .text addr _ => addr
  | _ => 0

/-- An empty blob has no address. -/
def sqlite3ColumnBlob (k i : Nat) : Op Int := readColumn g k i fun
  | .blob addr len => if len = 0 then 0 else addr
  | _ => 0

/-- `sqlite3_column_bytes`. -/
def sqlite3ColumnBytes (k i : Nat) : Op Int := readColumn g k i fun
  | .text _ len | .blob _ len => len
  | _ => 0

/-! ## The session -/

/-- What `bufCap` starts with. -/
def SQL_BUF : Int := 4096

/-- `Session.scratch`. -/
def scratch (n : Int) : Op Int := do
  let s ← Prog.get
  Prog.onlyIf (s.bindBuf = 0 ∨ s.bindCap < n) do
    Prog.onlyIf (s.bindBuf ≠ 0) (free g s.bindBuf)
    let bindCap := max n (max (i32 (s.bindCap * 2)) SQL_BUF)
    Prog.modify fun s => { s with bindCap }
    let bindBuf ← malloc g bindCap
    Prog.modify fun s => { s with bindBuf }
  pure (← Prog.get).bindBuf

/-- `Session.bindOne`. -/
def bindOne (k i : Nat) : Param → Op Int
  | .null => sqlite3BindNull g k i
  | .long n => sqlite3BindInt64 g k i n
  | .int n => sqlite3BindInt64 g k i n
  | .boolean b => sqlite3BindInt64 g k i (if b then 1 else 0)
  | .double x => sqlite3BindDouble g k i x
  | .float x => sqlite3BindDouble g k i x.toFloat
  | .string s => do
    let b := toByteArray s
    let p ← scratch g b.length
    onMem (write p b)
    sqlite3BindText g k i p b.length
  | .bytes b => do
    let p ← scratch g b.length
    onMem (write p b)
    sqlite3BindBlob g k i p b.length
  | .other => Prog.throw

/-- The parameters from the `i`-th on. -/
def bindFrom (k : Nat) : Nat → List Param → Op Unit
  | _, [] => pure ()
  | i, p :: ps => do
    let rc ← bindOne g k i p
    Prog.throwIf (rc ≠ 0)
    bindFrom k (i + 1) ps

/-- `Session.bindAll`: the parameters from 1 on. -/
def bindAll (k : Nat) (params : List Param) : Op Unit := bindFrom g k 1 params

/-- A value by its storage class. -/
def decode (k i : Nat) : Op Value := do
  match ← sqlite3ColumnType g k i with
  | 1 => do pure (.long (← sqlite3ColumnInt64 g k i))
  | 2 => do pure (.double (← sqlite3ColumnDouble g k i))
  | 3 => do
    let p ← sqlite3ColumnText g k i
    let n ← sqlite3ColumnBytes g k i
    pure (.text (← onMem (readString g.malformed p n)))
  | 4 => do
    let p ← sqlite3ColumnBlob g k i
    let n ← sqlite3ColumnBytes g k i
    pure (.blob (← onMem (readBytes p n)))
  | _ => pure .null

/-- The loop of `decodeRows`: none for BUSY and PROTOCOL, the heap's exception for more rows than it holds. -/
def turns (k : Nat) (cols : List String) : Nat → List SqliteRow → Op (Option (List SqliteRow))
  | room, rows => do
    let src ← sqlite3Step g k
    if src = ROW then do
      let values ← Prog.listFrom (decode g k) 0 cols.length
      match room with
      | 0 => Prog.throw
      | room + 1 => turns k cols room (rows ++ [⟨cols, values⟩])
    else if src = DONE then pure (some rows)
    else if transient src then pure none
    else Prog.throw

/-- `sqlite3_column_count`. -/
def sqlite3ColumnCount (k : Nat) : Op Nat := do
  call g
  pure (g.count k)

/-- With the `readCString` behind it. -/
def sqlite3ColumnName (k i : Nat) : Op String := do
  call g
  pure (g.columnName k i)

/-- `Session.decodeRows`. -/
def decodeRows (k : Nat) : Op (Option (List SqliteRow)) := do
  let n ← sqlite3ColumnCount g k
  let cols ← Prog.listFrom (sqlite3ColumnName g k) 0 n
  turns g k cols (g.heapRows + 1) []

/-- The attempt of `queryRows`, and that of `runUserRows`, which clears nothing. -/
inductive Call where
  | queryRows (k : Nat) (params : List Param)
  | runUserRows (k : Nat) (params : List Param)

/-- The statement of a call. -/
def Call.stmt : Call → Nat
  | .queryRows k _ | .runUserRows k _ => k

/-- Its parameters. -/
def Call.params : Call → List Param
  | .queryRows _ params | .runUserRows _ params => params

/-- The `try` block of the two calls. -/
def rowsOf (k : Nat) (params : List Param) : Op (Option (List SqliteRow)) := do
  bindAll g k params
  decodeRows g k

/-- Their `finally`. -/
def Call.final : Call → Op Unit
  | .queryRows k params => do
    sqlite3Reset k
    Prog.onlyIf (params ≠ []) (sqlite3ClearBindings g k)
  | .runUserRows k _ => sqlite3Reset k

/-- A call with the `finally` that clears the bindings. -/
def Call.exec (c : Call) : Op (Option (List SqliteRow)) := Prog.tryFinally (rowsOf g c.stmt c.params) (c.final g)

/-- The session behind some calls. -/
def after (calls : List Call) : State := calls.foldl (fun s c => (c.exec g s).2) (start g)

/-! ## The blocks and who holds them -/

variable {g} {s s' : State} {k i : Nat}

/-- The scratch block and the copies SQLite has made are blocks of their own. -/
structure Sound (s : State) : Prop where
  heap : s.heap.Sound
  scratch : s.bindBuf ≠ 0 → ⟨s.bindBuf, s.bindCap⟩ ∈ s.heap.live
  copy : ∀ k i, ∀ b ∈ (s.cells k i).block, b ∈ s.heap.live ∧ b.addr ≠ s.bindBuf
  own : ∀ k i k' i', ∀ b ∈ (s.cells k i).block, ∀ b' ∈ (s.cells k' i').block, b.addr = b'.addr → k = k' ∧ i = i'

theorem start_sound : Sound (start g) where
  heap := ⟨fun _ h => absurd h List.not_mem_nil, .nil⟩
  scratch h := absurd rfl h
  copy _ _ _ h := absurd h (Option.not_mem_none _)
  own _ _ _ _ _ h := absurd h (Option.not_mem_none _)

theorem put_self {c : Cell} : (s.put k i c).cells k i = c := by
  simp only [State.put, Function.update_self]

theorem put_other {c : Cell} {k' i' : Nat} (hne : ¬(k' = k ∧ i' = i)) : (s.put k i c).cells k' i' = s.cells k' i' := by
  by_cases hk : k' = k
  · subst hk
    simp only [State.put, Function.update_self, Function.update_of_ne fun hi => hne ⟨rfl, hi⟩]
  · simp only [State.put, Function.update_of_ne hk]

/-- The blocks stay, whatever is in the memory. -/
theorem Sound.of_heap {h : Heap} (hs : Sound s) (hh : h.Sound) (hlive : h.live = s.heap.live) :
    Sound { s with heap := h } where
  heap := hh
  scratch hne := hlive ▸ hs.scratch hne
  copy k i b hb := hlive ▸ hs.copy k i b hb
  own := hs.own

/-- A block is freed by its one holder, which forgets it. -/
theorem Sound.freed {addr buf : Int} {cells : Nat → Nat → Cell} (hs : Sound s)
    (hbuf : buf = 0 ∨ buf = s.bindBuf ∧ buf ≠ addr)
    (hcells : ∀ k i, ∀ b ∈ (cells k i).block, b ∈ (s.cells k i).block ∧ b.addr ≠ addr) :
    Sound { s with heap := s.heap.free g.toGuest addr, bindBuf := buf, cells := cells } where
  heap := (hs.heap.free addr).1
  scratch hne := by
    rcases hbuf with h | ⟨rfl, h⟩
    · exact absurd h hne
    · exact mem_live_free.mpr ⟨hs.scratch hne, h⟩
  copy k i b hb := by
    obtain ⟨hwas, hkept⟩ := hcells k i b hb
    obtain ⟨hlive, hne⟩ := hs.copy k i b hwas
    refine ⟨mem_live_free.mpr ⟨hlive, hkept⟩, ?_⟩
    rcases hbuf with rfl | ⟨rfl, -⟩
    · exact (hs.heap.inside b hlive).1.ne'
    · exact hne
  own k i k' i' b hb b' hb' := hs.own k i k' i' b (hcells k i b hb).1 b' (hcells k' i' b' hb').1

/-- A new block is nobody's yet. -/
structure Fresh (s : State) (b : Block) (h : Heap) : Prop where
  pos : 0 < b.addr
  size : 0 < b.size
  live : h.live = b :: s.heap.live
  apart : ∀ c ∈ s.heap.live, b.Apart c
  sound : h.Sound
  frame : Frame s.heap h

theorem Fresh.addr_ne {b c : Block} {h : Heap} (hf : Fresh s b h) (hs : Sound s) (hc : c ∈ s.heap.live) :
    c.addr ≠ b.addr := hs.heap.addr_ne hf.size (hf.apart c hc) hc

theorem malloc_fresh (hs : Sound s) (n : Int) : (s.heap.malloc g.toGuest n).2.exhausted = true ∨
    Fresh s ⟨(s.heap.malloc g.toGuest n).1, max n 1⟩ (s.heap.malloc g.toGuest n).2 := by
  refine (hs.heap.malloc n).imp id fun ⟨hpos, hlive, hapart, hsound, hframe⟩ => ?_
  exact ⟨hpos, by show 0 < max n 1; omega, hlive, hapart, hsound, hframe⟩

theorem Fresh.scratch {p cap : Int} {h : Heap} (hf : Fresh s ⟨p, cap⟩ h) (hs : Sound s) :
    Sound { s with heap := h, bindBuf := p, bindCap := cap } where
  heap := hf.sound
  scratch _ := by rw [hf.live]; exact List.mem_cons_self
  copy k i b hb := by
    obtain ⟨hlive, -⟩ := hs.copy k i b hb
    exact ⟨by rw [hf.live]; exact List.mem_cons_of_mem _ hlive, hf.addr_ne hs hlive⟩
  own := hs.own

theorem Fresh.copy {b : Block} {h : Heap} {c : Cell} (hf : Fresh s b h) (hs : Sound s) (hc : c.block = some b) :
    Sound (State.put { s with heap := h } k i c) := by
  have hcell : ∀ k' i', ∀ d ∈ ((State.put { s with heap := h } k i c).cells k' i').block,
      (k' = k ∧ i' = i ∧ d = b) ∨ (¬(k' = k ∧ i' = i) ∧ d ∈ (s.cells k' i').block) := by
    intro k' i' d hd
    by_cases heq : k' = k ∧ i' = i
    · obtain ⟨rfl, rfl⟩ := heq
      rw [put_self, hc] at hd
      exact .inl ⟨rfl, rfl, (Option.some.inj hd).symm⟩
    · rw [put_other heq] at hd
      exact .inr ⟨heq, hd⟩
  refine ⟨hf.sound, fun hne => ?_, fun k' i' d hd => ?_, fun k₁ i₁ k₂ i₂ b₁ h₁ b₂ h₂ haddr => ?_⟩
  · rw [show (State.put { s with heap := h } k i c).heap.live = b :: s.heap.live from hf.live]
    exact List.mem_cons_of_mem _ (hs.scratch hne)
  · rw [show (State.put { s with heap := h } k i c).heap.live = b :: s.heap.live from hf.live]
    rcases hcell k' i' d hd with ⟨-, -, rfl⟩ | ⟨-, hd⟩
    · refine ⟨List.mem_cons_self, fun heq => ?_⟩
      have hne : s.bindBuf ≠ 0 := fun h0 => hf.pos.ne' (heq.trans h0)
      exact hf.addr_ne hs (hs.scratch hne) heq.symm
    · obtain ⟨hlive, hne⟩ := hs.copy k' i' d hd
      exact ⟨List.mem_cons_of_mem _ hlive, hne⟩
  · rcases hcell k₁ i₁ b₁ h₁ with ⟨rfl, rfl, rfl⟩ | ⟨-, hb₁⟩
    · rcases hcell k₂ i₂ b₂ h₂ with ⟨rfl, rfl, -⟩ | ⟨-, hb₂⟩
      · exact ⟨rfl, rfl⟩
      · exact absurd haddr.symm (hf.addr_ne hs (hs.copy _ _ _ hb₂).1)
    · rcases hcell k₂ i₂ b₂ h₂ with ⟨rfl, rfl, rfl⟩ | ⟨-, hb₂⟩
      · exact absurd haddr (hf.addr_ne hs (hs.copy _ _ _ hb₁).1)
      · exact hs.own _ _ _ _ _ hb₁ _ hb₂ haddr

theorem Sound.put {c : Cell} (hs : Sound s) (hc : c.block = none) : Sound (s.put k i c) := by
  have hcell : ∀ k' i', ∀ d ∈ ((s.put k i c).cells k' i').block, d ∈ (s.cells k' i').block := by
    intro k' i' d hd
    by_cases heq : k' = k ∧ i' = i
    · obtain ⟨rfl, rfl⟩ := heq
      rw [put_self, hc] at hd
      exact absurd hd (Option.not_mem_none d)
    · rwa [put_other heq] at hd
  exact ⟨hs.heap, hs.scratch, fun k' i' d hd => hs.copy k' i' d (hcell k' i' d hd),
    fun k₁ i₁ k₂ i₂ b₁ h₁ b₂ h₂ => hs.own k₁ i₁ k₂ i₂ b₁ (hcell _ _ _ h₁) b₂ (hcell _ _ _ h₂)⟩

theorem Sound.cursor (hs : Sound s) (c : Nat → Cursor) : Sound { s with cursor := c } :=
  ⟨hs.heap, hs.scratch, hs.copy, hs.own⟩

/-! ## The values -/

/-- What a column reads as. -/
def Cell.value (g : Guest) (m : Memory) : Cell → Value
  | .null => .null
  | .long n => .long n
  | .double x => .double x
  | .text addr len => .text (stringOf g.malformed (m.bytes addr len))
  | .blob addr len => .blob (m.bytes addr len)

/-- A parameter of a statement, as the columns give it back. -/
def value (g : Guest) (s : State) (k i : Nat) : Value := (s.cells k i).value g s.heap.mem

theorem value_eq (hcell : s'.cells k i = s.cells k i)
    (hsame : ∀ b ∈ (s.cells k i).block, Same b s.heap s'.heap) : value g s' k i = value g s k i := by
  have hbytes : ∀ (addr : Int) (len : Nat), (s.cells k i).block = some ⟨addr, max len 1⟩ →
      s'.heap.mem.bytes addr len = s.heap.mem.bytes addr len := fun addr len h =>
    (hsame _ h).bytes_eq (by simp only; omega)
  unfold value
  rw [hcell]
  cases hc : s.cells k i with
  | text addr len => simp only [Cell.value, hbytes addr len (by rw [hc]; rfl)]
  | blob addr len => simp only [Cell.value, hbytes addr len (by rw [hc]; rfl)]
  | _ => rfl

/-- Nothing that a statement keeps has changed. -/
structure Still (g : Guest) (s s' : State) : Prop where
  sound : Sound s'
  cells : s'.cells = s.cells
  cursor : s'.cursor = s.cursor
  value : ∀ k i, value g s' k i = value g s k i

theorem Still.refl (hs : Sound s) : Still g s s := ⟨hs, rfl, rfl, fun _ _ => rfl⟩

theorem Still.trans {s'' : State} (h : Still g s s') (h' : Still g s' s'') : Still g s s'' :=
  ⟨h'.sound, h'.cells.trans h.cells, h'.cursor.trans h.cursor, fun k i => (h'.value k i).trans (h.value k i)⟩

theorem call_still {s₀ : State} (hs : Still g s₀ s) : (call g).wp (fun _ s' => Still g s₀ s') (fun _ => False) s := by
  refine hs.trans ⟨hs.sound.of_heap hs.sound.heap.ran rfl, rfl, rfl, fun k i => value_eq rfl fun b hb => ?_⟩
  exact hs.sound.heap.ran_same (hs.sound.copy k i b hb).1

/-! ## Reading a row -/

section
variable {s₀ : State}

theorem readColumn_still {α : Type} {f : Cell → α} (hs : Still g s₀ s) :
    (readColumn g k i f).wp (fun a s' => a = f (column g k i s₀) ∧ Still g s₀ s') (fun _ => False) s := by
  refine Prog.wp_then (call_still hs) fun _ s₁ h₁ => ⟨?_, h₁⟩
  simp only [column, h₁.cursor, h₁.cells]

/-- Where the copy of a parameter is. -/
theorem Sound.copy_bounds {addr : Int} {len : Nat} (hs : Sound s) (hb : (s.cells k i).block = some ⟨addr, max len 1⟩) :
    0 ≤ addr ∧ addr + len ≤ s.heap.mem.size := by
  obtain ⟨hpos, -, hend⟩ := hs.heap.inside _ (hs.copy k i _ hb).1
  simp only at hpos hend
  omega

/-- The memory is only read. -/
theorem onMem_returns {α : Type} {p : Prog Memory α} {a : α} {Q : α → State → Prop} {E : State → Prop}
    (hp : p s.heap.mem = (some a, s.heap.mem)) (hQ : Q a s) : (onMem p).wp Q E s := by
  rw [onMem, Prog.wp_within]
  unfold Prog.wp
  rw [hp]
  exact hQ

theorem decode_still (hs : Still g s₀ s) (hcur : s₀.cursor k = .running) (hi : i < g.count k) :
    (decode g k i).wp (fun v s' => v = value g s₀ k (i + 1) ∧ Still g s₀ s') (fun _ => False) s := by
  have hcol : column g k i s₀ = s₀.cells k (i + 1) := if_pos ⟨hcur, hi⟩
  refine Prog.wp_then (readColumn_still hs) fun ty s₁ h₁ => ?_
  obtain ⟨rfl, h₁⟩ := h₁
  rw [hcol]
  cases hc : s₀.cells k (i + 1) with
  | null => exact ⟨by rw [value, hc]; rfl, h₁⟩
  | long n =>
    refine Prog.wp_then (readColumn_still h₁) fun a s₂ h₂ => ?_
    rw [hcol, hc] at h₂
    exact ⟨by rw [value, hc, h₂.1]; rfl, h₂.2⟩
  | double x =>
    refine Prog.wp_then (readColumn_still h₁) fun a s₂ h₂ => ?_
    rw [hcol, hc] at h₂
    exact ⟨by rw [value, hc, h₂.1]; rfl, h₂.2⟩
  | text addr len =>
    refine Prog.wp_then (readColumn_still h₁) fun p s₂ h₂ => ?_
    refine Prog.wp_then (readColumn_still h₂.2) fun n s₃ h₃ => ?_
    rw [hcol, hc] at h₂ h₃
    obtain ⟨hp, -⟩ := h₂
    obtain ⟨hn, h₃⟩ := h₃
    dsimp only at hp hn
    subst hp hn
    have hcell : s₃.cells k (i + 1) = .text p len := by rw [h₃.cells, hc]
    have hvalue : value g s₃ k (i + 1) = value g s₀ k (i + 1) := h₃.value k (i + 1)
    rw [value, hcell] at hvalue
    obtain ⟨hlo, hhi⟩ : 0 ≤ p ∧ p + len ≤ s₃.heap.mem.size := h₃.sound.copy_bounds (by rw [hcell]; rfl)
    exact Prog.wp_bind.mpr (onMem_returns (readString_eq hlo (by omega) hhi) ⟨hvalue, h₃⟩)
  | blob addr len =>
    refine Prog.wp_then (readColumn_still h₁) fun p s₂ h₂ => ?_
    refine Prog.wp_then (readColumn_still h₂.2) fun n s₃ h₃ => ?_
    rw [hcol, hc] at h₂ h₃
    obtain ⟨hp, -⟩ := h₂
    obtain ⟨hn, h₃⟩ := h₃
    dsimp only at hp hn
    subst hn
    have hcell : s₃.cells k (i + 1) = .blob addr len := by rw [h₃.cells, hc]
    have hvalue : value g s₃ k (i + 1) = value g s₀ k (i + 1) := h₃.value k (i + 1)
    rw [value, hcell] at hvalue
    obtain ⟨hlo, hhi⟩ : 0 ≤ addr ∧ addr + len ≤ s₃.heap.mem.size := h₃.sound.copy_bounds (by rw [hcell]; rfl)
    split at hp
    · next hempty =>
      -- an empty blob is read at address 0, where there is nothing to read
      have hnone : s₃.heap.mem.bytes p len = s₃.heap.mem.bytes addr len := by simp [Memory.bytes, hempty]
      have hread : readBytes p len s₃.heap.mem = (some (s₃.heap.mem.bytes p len), s₃.heap.mem) :=
        readBytes_eq (by omega) (by omega) (by omega)
      rw [hnone] at hread
      exact Prog.wp_bind.mpr (onMem_returns hread ⟨hvalue, h₃⟩)
    · subst hp
      exact Prog.wp_bind.mpr (onMem_returns (readBytes_eq hlo (by omega) hhi) ⟨hvalue, h₃⟩)

theorem columnCount_still (hs : Still g s₀ s) :
    (sqlite3ColumnCount g k).wp (fun n s' => n = g.count k ∧ Still g s₀ s') (fun _ => False) s :=
  Prog.wp_then (call_still hs) fun _ _ h => ⟨rfl, h⟩

theorem columnName_still (hs : Still g s₀ s) :
    (sqlite3ColumnName g k i).wp (fun a s' => a = g.columnName k i ∧ Still g s₀ s') (fun _ => False) s :=
  Prog.wp_then (call_still hs) fun _ _ h => ⟨rfl, h⟩

theorem step_row (hs : Sound s) (hcur : s.cursor k ≠ .running) :
    (sqlite3Step g k).wp (fun rc s' => rc = ROW ∧ Sound s' ∧ s'.cursor k = .running ∧
      ∀ i, value g s' k i = value g s k i) (fun _ => False) s := by
  refine Prog.wp_then (call_still (Still.refl hs)) fun _ s₁ h₁ => ?_
  have hcur₁ : s₁.cursor k ≠ .running := by rw [h₁.cursor]; exact hcur
  simp only [Prog.wp_bind, Prog.wp_get, if_neg hcur₁]
  refine ⟨rfl, h₁.sound.cursor _, Function.update_self .., fun i => ?_⟩
  exact (value_eq rfl fun _ _ _ _ => rfl).trans (h₁.value k i)

theorem step_done (hs : Sound s) (hcur : s.cursor k = .running) :
    (sqlite3Step g k).wp (fun rc _ => rc = DONE) (fun _ => False) s := by
  refine Prog.wp_then (call_still (Still.refl hs)) fun _ s₁ h₁ => ?_
  have hcur₁ : s₁.cursor k = .running := by rw [h₁.cursor]; exact hcur
  simp only [Prog.wp_bind, Prog.wp_get, if_pos hcur₁]
  rfl

/-- The names of a statement's columns. -/
def columns (g : Guest) (k : Nat) : List String := (List.range (g.count k)).map (g.columnName k)

/-- A row of the statement's parameters, and the end. -/
theorem decodeRows_returns (hs : Sound s) (hcur : s.cursor k = .reset) :
    (decodeRows g k).wp
      (fun r _ => r = some [⟨columns g k, (List.range (g.count k)).map fun i => value g s k (i + 1)⟩])
      (fun _ => False) s := by
  refine Prog.wp_then (columnCount_still (Still.refl hs)) fun n s₁ h₁ => ?_
  obtain ⟨rfl, h₁⟩ := h₁
  refine Prog.wp_then (Prog.wp_listFrom (fun i _ s h => columnName_still h) (g.count k) 0 s₁ (zero_add _).le h₁)
    fun cols s₂ h₂ => ?_
  obtain ⟨rfl, h₂⟩ := h₂
  rw [← List.range_eq_range', ← columns]
  have hcur₂ : s₂.cursor k ≠ .running := by rw [h₂.cursor, hcur]; exact Cursor.noConfusion
  unfold turns
  refine Prog.wp_then (step_row h₂.sound hcur₂) fun rc s₃ h₃ => ?_
  obtain ⟨rfl, hs₃, hcur₃, hvalue₃⟩ := h₃
  have hlen : (columns g k).length = g.count k := by rw [columns, List.length_map, List.length_range]
  rw [if_pos rfl, hlen]
  refine Prog.wp_then (Prog.wp_listFrom (fun i hi s h => decode_still h hcur₃ hi) (g.count k) 0 s₃ (zero_add _).le
    (Still.refl hs₃)) fun values s₄ h₄ => ?_
  obtain ⟨rfl, h₄⟩ := h₄
  have hvalues : (List.range' 0 (g.count k)).map (fun i => value g s₃ k (i + 1)) =
      (List.range (g.count k)).map fun i => value g s k (i + 1) := by
    rw [← List.range_eq_range']
    exact List.map_congr_left fun i _ => (hvalue₃ (i + 1)).trans (h₂.value k (i + 1))
  unfold turns
  refine Prog.wp_then (step_done h₄.sound (by rw [h₄.cursor]; exact hcur₃)) fun rc s₅ h₅ => ?_
  subst h₅
  rw [hvalues, if_neg (by decide), if_pos rfl]
  rfl

end

end BindRoundTrip

end Sqlol

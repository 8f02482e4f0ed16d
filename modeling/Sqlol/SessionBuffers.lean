/-
The blocks of a `Session`: the out-slot `pp`, the text buffer `buf` and the scratch
block `bindBuf`, over every sequence of calls.

Each call notes what it does with the guest's memory, with the blocks that are the
session's at that moment. `Inv` says which blocks the fields stand for; `free` before
`malloc` keeps it, whatever the guest answers. But no call looks at the answer: with 0
for a block the text goes to address 0. `buffers_safe` has every access in a block of
the session's over the runs in which the guest has a block for each text, or the
memory is too small to write it anywhere.
-/
import Sqlol.GuestHeap
import Sqlol.MemoryBounds
import Sqlol.Runs
import Sqlol.Statements

namespace Sqlol

namespace SessionBuffers

open BulkMemory GuestHeap
open Statements (Param)

/-- What is done with the guest's memory. -/
inductive Access where
  | malloc (n addr : Int)
  | free (addr : Int)
  /-- `n` bytes are put from `addr` on. -/
  | write (addr n : Int)
  /-- `n` bytes from `addr` on are read, by SQLite or by `readInt`. -/
  | read (addr n : Int)
  deriving DecidableEq

/-- An access, as it is noted. -/
structure Event where
  access : Access
  /-- The session's blocks at that moment. -/
  live : List Block
  deriving DecidableEq

/-- How far the session is. -/
inductive Phase where
  | new
  | opened
  | closed
  deriving DecidableEq

/-- The guest's heap and the fields of the session. -/
structure State where
  heap : Heap
  phase : Phase := .new
  pp : Int := 0
  buf : Int := 0
  bufCap : Int := 0
  bindBuf : Int := 0
  bindCap : Int := 0
  log : List Event := []

/-- A method of the session. -/
abbrev Op : Type → Type := Prog State

/-- An access, and the blocks there are. -/
def State.note (s : State) (a : Access) : State := { s with log := ⟨a, s.heap.live⟩ :: s.log }

/-- An access, and the blocks there are. -/
def note (a : Access) : Op Unit := Prog.modify fun s => s.note a

section
variable (g : GuestHeap.Guest)

/-- A call of the guest. -/
def call : Op Unit := Prog.modify fun s => { s with heap := s.heap.ran g }

/-- `x.malloc(n)`: the guest takes the 32 bits for a `size_t`. -/
def mallocBlock (n : Int) (h : Heap) : Int × Heap := h.malloc g (n % 4294967296)

/-- `x.malloc(n)`, noted. -/
def malloc (n : Int) : Op Int := fun s => match mallocBlock g n s.heap with
  | (addr, heap) => (some addr, State.note { s with heap } (.malloc n addr))

/-- `x.free(addr)`, noted. -/
def free (addr : Int) : Op Unit := do
  note (.free addr)
  Prog.modify fun s => { s with heap := s.heap.free g addr }

/-- `mem.write(addr, b)`. -/
def memWrite (addr : Int) (b : List UInt8) : Op Unit := fun s =>
  ((write addr b s.heap.mem).1, { s.note (.write addr (written s.heap.mem addr b)) with
    heap := { s.heap with mem := (write addr b s.heap.mem).2 } })

/-- `mem.writeByte(addr, b)`. -/
def memWriteByte (addr : Int) (b : UInt8) : Op Unit := memWrite addr [b]

/-! ## The session -/

/-- What `bufCap` starts with. -/
def SQL_BUF : Int := 4096

/-- What `bufCap` grows to, for a text of `n` bytes. -/
def sqlCap (n bufCap : Int) : Int := max (i32 (n + 1)) (i32 (bufCap * 2))

/-- No array has more bytes. -/
def arrayOf (b : List UInt8) : Op (List UInt8) := do
  Prog.throwIf (2147483648 ≤ b.length)
  pure b

/-- `if (b.size >= bufCap)`. -/
def sqlBuf (n : Int) : Op Unit := do
  let s ← Prog.get
  Prog.onlyIf (s.bufCap ≤ n) do
    free g s.buf
    let bufCap := sqlCap n s.bufCap
    Prog.modify fun s => { s with bufCap }
    let buf ← malloc g bufCap
    Prog.modify fun s => { s with buf }

/-- `Session.sqlPtr`. -/
def sqlPtr (text : String) : Op Int := do
  let b ← arrayOf (toByteArray text)
  sqlBuf g b.length
  let buf := (← Prog.get).buf
  memWrite buf b
  memWriteByte (i32 (buf + b.length)) 0
  note (.read buf (b.length + 1))
  pure buf

/-- What `bindCap` grows to, for `n` bytes. -/
def scratchCap (n bindCap : Int) : Int := max n (max (i32 (bindCap * 2)) SQL_BUF)

/-- `Session.scratch`. -/
def scratch (n : Int) : Op Int := do
  let s ← Prog.get
  Prog.onlyIf (s.bindBuf = 0 ∨ s.bindCap < n) do
    Prog.onlyIf (s.bindBuf ≠ 0) (free g s.bindBuf)
    let bindCap := scratchCap n s.bindCap
    Prog.modify fun s => { s with bindCap }
    let bindBuf ← malloc g bindCap
    Prog.modify fun s => { s with bindBuf }
  pure (← Prog.get).bindBuf

/-- `sqlite3_bind_text` or `sqlite3_bind_blob`, which copies the bytes. -/
def bindBytes (bytes : List UInt8) : Op Unit := do
  let b ← arrayOf bytes
  let p ← scratch g b.length
  memWrite p b
  note (.read p b.length)
  call g

/-- `Session.bindOne`; a number needs no bytes of the session's. -/
def bindOne : Param → Op Unit
  | .null | .long _ | .int _ | .boolean _ | .double _ | .float _ => call g
  | .string s => bindBytes g (toByteArray s)
  | .bytes b => bindBytes g b
  | .other => Prog.throw

/-- The constructor; `rc` is what `sqlite3_open_v2` answers. -/
def init (guestPath : String) (rc : Int) : Op Unit := do
  let pp ← malloc g 4
  Prog.modify fun s => { s with pp }
  let buf ← malloc g SQL_BUF
  Prog.modify fun s => { s with buf, bufCap := SQL_BUF }
  let _ ← sqlPtr g guestPath
  call g
  note (.read pp 4)
  Prog.throwIf (rc ≠ 0)

/-- Behind the statements' finalizers. -/
def close : Op Unit := do
  call g
  let s ← Prog.get
  Prog.onlyIf (s.bindBuf ≠ 0) do
    free g s.bindBuf
    Prog.modify fun s => { s with bindBuf := 0 }
  free g s.buf
  free g s.pp
  call g

end

/-- The calls of the session's owner. -/
inductive Call where
  | init (guestPath : String) (rc : Int)
  | sqlPtr (text : String)
  | bindOne (v : Param)
  /-- A call of SQLite with none of the session's bytes. -/
  | other
  | close

/-- The method of a call. -/
def Call.exec (g : GuestHeap.Guest) : Call → Op Unit
  | .init guestPath rc => SessionBuffers.init g guestPath rc
  | .sqlPtr text => do
    let _ ← SessionBuffers.sqlPtr g text
    call g
  | .bindOne v => SessionBuffers.bindOne g v
  | .other => call g
  | .close => SessionBuffers.close g

/-- A constructor that throws leaves no session. -/
def Call.phase : Call → Option Unit → Phase
  | .init _ _, none => .closed
  | .close, _ => .closed
  | _, _ => .opened

/-- One constructor, and then the calls until `close`. -/
def Call.Allowed (s : State) : Call → Prop
  | .init _ _ => s.phase = .new
  | _ => s.phase = .opened

instance (s : State) (c : Call) : Decidable (c.Allowed s) := by
  cases c <;> exact inferInstanceAs (Decidable (_ = _))

/-- A call, from an empty log on. -/
def Call.run (g : GuestHeap.Guest) (s : State) (c : Call) : Option Unit × State := c.exec g { s with log := [] }

/-- A call, where it is allowed. -/
def step (g : GuestHeap.Guest) (s : State) (c : Call) : Option State :=
  if c.Allowed s then some { (c.run g s).2 with phase := c.phase (c.run g s).1 } else none

/-- Before the constructor. -/
def start (m : Memory) : State := { heap := { mem := m } }

/-! ## What is claimed -/

/-- The access is to a block that the session has at that moment. -/
def Event.Safe (e : Event) : Prop := match e.access with
  | .malloc _ _ => True
  | .free addr => addr = 0 ∨ ∃ b ∈ e.live, b.addr = addr
  | .write addr n => ∀ a, addr ≤ a → a < addr + n → ∃ b ∈ e.live, b.Has a
  | .read addr n => ∃ b ∈ e.live, b.addr = addr ∧ n ≤ b.size

/-- The guest has no block. -/
def Event.Exhausted (e : Event) : Prop := match e.access with
  | .malloc _ addr => addr = 0
  | _ => False

/-- A byte is written. -/
def Event.Writes (e : Event) : Prop := match e.access with
  | .write _ n => 0 < n
  | _ => False

/-- Every access is safe, and an exhausted allocation is an error with nothing written. -/
structure Safe (g : GuestHeap.Guest) (s : State) (c : Call) : Prop where
  events : ∀ e ∈ (c.run g s).2.log, e.Safe
  exhausted : (∃ e ∈ (c.run g s).2.log, e.Exhausted) →
    (c.run g s).1 = none ∧ ∀ e ∈ (c.run g s).2.log, ¬e.Writes

/-! ## When it holds -/

section
variable (g : GuestHeap.Guest)

/-- Where a text of `n` bytes goes: the buffer, or what the guest answers for a larger one. -/
def sqlAnswer (n : Int) (s : State) : Int × Heap :=
  if s.bufCap ≤ n then mallocBlock g (sqlCap n s.bufCap) (s.heap.free g s.buf) else (s.buf, s.heap)

/-- Where `n` bytes go: the scratch block, or what the guest answers for a larger one. -/
def scratchAnswer (n : Int) (s : State) : Int × Heap :=
  if s.bindBuf = 0 ∨ s.bindCap < n then
    mallocBlock g (scratchCap n s.bindCap) (if s.bindBuf ≠ 0 then s.heap.free g s.bindBuf else s.heap)
  else (s.bindBuf, s.heap)

/-- The answers to the constructor's own calls. -/
def initAnswer (s : State) : State :=
  let (pp, h) := mallocBlock g 4 s.heap
  let (buf, h) := mallocBlock g SQL_BUF h
  { s with heap := h, pp, buf, bufCap := SQL_BUF }

end

/-- A block, for a text whose length has a successor. -/
def SqlServed (n : Int) (answer : Int × Heap) : Prop := answer.1 ≠ 0 ∧ n < 2147483647

instance (n : Int) (answer : Int × Heap) : Decidable (SqlServed n answer) := inferInstanceAs (Decidable (_ ∧ _))

/-- No such text, or a memory without room for it at any address. -/
def SqlRefused (n : Int) (answer : Int × Heap) : Prop :=
  2147483648 ≤ n ∨ answer.1 = 0 ∧ (answer.2.mem.size < n ∨ answer.2.mem.size = 0)

instance (n : Int) (answer : Int × Heap) : Decidable (SqlRefused n answer) :=
  inferInstanceAs (Decidable (_ ∨ _ ∧ (_ ∨ _)))

/-- A block, for bytes that an array can have. -/
def BytesServed (n : Int) (answer : Int × Heap) : Prop := answer.1 ≠ 0 ∧ n < 2147483648

instance (n : Int) (answer : Int × Heap) : Decidable (BytesServed n answer) := inferInstanceAs (Decidable (_ ∧ _))

/-- No such array, or a memory without room for the bytes at address 0. -/
def BytesRefused (n : Int) (answer : Int × Heap) : Prop :=
  2147483648 ≤ n ∨ answer.1 = 0 ∧ answer.2.mem.size < n

instance (n : Int) (answer : Int × Heap) : Decidable (BytesRefused n answer) :=
  inferInstanceAs (Decidable (_ ∨ _ ∧ _))

/-- The bytes that `bindOne` writes. -/
def paramBytes : Param → Option (List UInt8)
  | .string s => some (toByteArray s)
  | .bytes b => some b
  | _ => none

/-- The guest has a block wherever the session asks for one, or nothing can be written in its place. -/
def Served (g : GuestHeap.Guest) (s : State) : Call → Prop
  | .init guestPath _ =>
    let s := initAnswer g s
    let n : Int := (toByteArray guestPath).length
    (s.pp ≠ 0 ∧ s.buf ≠ 0 ∧ SqlServed n (sqlAnswer g n s)) ∨ SqlRefused n (sqlAnswer g n s)
  | .sqlPtr text =>
    let n : Int := (toByteArray text).length
    SqlServed n (sqlAnswer g n s) ∨ SqlRefused n (sqlAnswer g n s)
  | .bindOne v => ∀ b ∈ paramBytes v,
    BytesServed b.length (scratchAnswer g b.length s) ∨ BytesRefused b.length (scratchAnswer g b.length s)
  | .other => True
  | .close => True

instance (g : GuestHeap.Guest) (s : State) : ∀ c : Call, Decidable (Served g s c)
  | .init _ _ => inferInstanceAs (Decidable (_ ∧ _ ∧ _ ∨ _))
  | .sqlPtr _ => inferInstanceAs (Decidable (_ ∨ _))
  | .bindOne v => inferInstanceAs (Decidable (∀ b ∈ paramBytes v, _ ∨ _))
  | .other => inferInstanceAs (Decidable True)
  | .close => inferInstanceAs (Decidable True)

/-! ## The session's blocks -/

variable {g : GuestHeap.Guest} {h : Heap} {s s' s'' : State} {P : Event → Prop} {E : State → Prop}

/-- An address that is not 0 is that of a block. -/
def Holds (h : Heap) (addr cap : Int) : Prop := addr ≠ 0 → 0 ≤ cap ∧ ⟨addr, max cap 1⟩ ∈ h.live

/-- Each field that is not 0 is the address of a block, and no two of the same. -/
structure Inv (s : State) : Prop where
  sound : s.heap.Sound
  pp : Holds s.heap s.pp 4
  buf : Holds s.heap s.buf s.bufCap
  bindBuf : Holds s.heap s.bindBuf s.bindCap
  pp_buf : s.pp ≠ 0 → s.pp ≠ s.buf
  pp_bindBuf : s.pp ≠ 0 → s.pp ≠ s.bindBuf
  buf_bindBuf : s.buf ≠ 0 → s.buf ≠ s.bindBuf

theorem start_inv (m : Memory) : Inv (start m) where
  sound := ⟨fun _ hb => absurd hb List.not_mem_nil, .nil⟩
  pp hne := absurd rfl hne
  buf hne := absurd rfl hne
  bindBuf hne := absurd rfl hne
  pp_buf hne := absurd rfl hne
  pp_bindBuf hne := absurd rfl hne
  buf_bindBuf hne := absurd rfl hne

/-- A negative number of bytes is more than there are. -/
theorem malloc_holds (cap : Int) (hs : h.Sound) (hlo : -2147483648 ≤ cap) (hhi : cap < 2147483648) :
    (mallocBlock g cap h).2.Sound ∧ Holds (mallocBlock g cap h).2 (mallocBlock g cap h).1 cap ∧
      ∀ addr n, Holds h addr n → Holds (mallocBlock g cap h).2 addr n ∧
        (addr ≠ 0 → addr ≠ (mallocBlock g cap h).1) := by
  obtain ⟨hsound, -, ⟨hzero, hlive, -⟩ | ⟨hpos, hlive, hapart⟩⟩ := hs.malloc_cases (g := g) (cap % 4294967296)
  · refine ⟨hsound, fun hne => absurd hzero hne, fun addr n hold => ⟨fun hne => ?_, fun hne => ?_⟩⟩
    · rw [mallocBlock, hlive]
      exact hold hne
    · rw [mallocBlock, hzero]
      exact hne
  · have hblock : (⟨(mallocBlock g cap h).1, max (cap % 4294967296) 1⟩ : Block) ∈ (mallocBlock g cap h).2.live := by
      rw [mallocBlock, hlive]
      exact List.mem_cons_self
    have hinside := hsound.inside _ hblock
    have hsize : (mallocBlock g cap h).2.mem.size < 2147483648 := Memory.size_lt
    have hcap : cap % 4294967296 = cap := by
      simp only [mallocBlock] at hinside hsize hpos
      omega
    refine ⟨hsound, fun _ => ⟨by omega, ?_⟩, fun addr n hold => ⟨fun hne => ⟨(hold hne).1, ?_⟩, fun hne => ?_⟩⟩
    · rw [hcap] at hblock
      exact hblock
    · rw [mallocBlock, hlive]
      exact List.mem_cons_of_mem _ (hold hne).2
    · exact hs.addr_ne (by simp only; omega) (hapart _ (hold hne).2) (hold hne).2

theorem free_holds (addr : Int) (hs : h.Sound) :
    (h.free g addr).Sound ∧ ∀ a n, Holds h a n → (a ≠ 0 → a ≠ addr) → Holds (h.free g addr) a n :=
  ⟨(hs.free addr).1, fun _ _ hold hne hnz => ⟨(hold hnz).1, mem_live_free.mpr ⟨(hold hnz).2, hne hnz⟩⟩⟩

/-- The session's blocks and fields are as they were. -/
structure Kept (s s' : State) : Prop where
  live : s'.heap.live = s.heap.live
  size : s.heap.mem.size ≤ s'.heap.mem.size
  pp : s'.pp = s.pp
  buf : s'.buf = s.buf
  bufCap : s'.bufCap = s.bufCap
  bindBuf : s'.bindBuf = s.bindBuf
  bindCap : s'.bindCap = s.bindCap

theorem Holds.kept {addr cap : Int} (hold : Holds s.heap addr cap) (hk : Kept s s') : Holds s'.heap addr cap := by
  intro hne
  rw [hk.live]
  exact hold hne

theorem Inv.kept (hs : Inv s) (hk : Kept s s') : Inv s' where
  sound := by
    refine ⟨fun b hb => ?_, by rw [hk.live]; exact hs.sound.apart⟩
    rw [hk.live] at hb
    obtain ⟨hpos, hsize, hend⟩ := hs.sound.inside b hb
    exact ⟨hpos, hsize, hend.trans hk.size⟩
  pp := by rw [hk.pp]; exact hs.pp.kept hk
  buf := by rw [hk.buf, hk.bufCap]; exact hs.buf.kept hk
  bindBuf := by rw [hk.bindBuf, hk.bindCap]; exact hs.bindBuf.kept hk
  pp_buf := by rw [hk.pp, hk.buf]; exact hs.pp_buf
  pp_bindBuf := by rw [hk.pp, hk.bindBuf]; exact hs.pp_bindBuf
  buf_bindBuf := by rw [hk.buf, hk.bindBuf]; exact hs.buf_bindBuf

theorem Kept.trans (h₁ : Kept s s') (h₂ : Kept s' s'') : Kept s s'' where
  live := h₂.live.trans h₁.live
  size := h₁.size.trans h₂.size
  pp := h₂.pp.trans h₁.pp
  buf := h₂.buf.trans h₁.buf
  bufCap := h₂.bufCap.trans h₁.bufCap
  bindBuf := h₂.bindBuf.trans h₁.bindBuf
  bindCap := h₂.bindCap.trans h₁.bindCap

/-- The log and the phase are no blocks. -/
theorem same_kept (phase : Phase) (log : List Event) : Kept s { s with phase, log } :=
  ⟨rfl, le_rfl, rfl, rfl, rfl, rfl, rfl⟩

theorem note_kept (a : Access) : Kept s (s.note a) := same_kept _ _

theorem ran_kept : Kept s { s with heap := s.heap.ran g } := ⟨rfl, ran_size, rfl, rfl, rfl, rfl, rfl⟩

section
variable {cap : Int}

/-- The slot is a block of its own. -/
theorem Inv.setPp (hs : Inv s) :
    Inv { s with heap := (mallocBlock g 4 s.heap).2, pp := (mallocBlock g 4 s.heap).1 } := by
  obtain ⟨hsound, hpp, hold⟩ := malloc_holds (g := g) 4 hs.sound (by decide) (by decide)
  have hbuf := hold _ _ hs.buf
  have hbind := hold _ _ hs.bindBuf
  exact ⟨hsound, hpp, hbuf.1, hbind.1, fun hne heq => hbuf.2 (heq ▸ hne) heq.symm,
    fun hne heq => hbind.2 (heq ▸ hne) heq.symm, hs.buf_bindBuf⟩

/-- The buffer is another block, from a heap that still has the others. -/
theorem Inv.setBuf (hs : Inv s) (hlo : -2147483648 ≤ cap) (hhi : cap < 2147483648) (hsound : h.Sound)
    (hpp : Holds h s.pp 4) (hbind : Holds h s.bindBuf s.bindCap) :
    Inv { s with heap := (mallocBlock g cap h).2, buf := (mallocBlock g cap h).1, bufCap := cap } := by
  obtain ⟨hsound, hbuf, hold⟩ := malloc_holds (g := g) cap hsound hlo hhi
  have hpp := hold _ _ hpp
  have hbind := hold _ _ hbind
  exact ⟨hsound, hpp.1, hbuf, hbind.1, hpp.2, hs.pp_bindBuf, fun hne heq => hbind.2 (heq ▸ hne) heq.symm⟩

theorem Inv.setBindBuf (hs : Inv s) (hlo : -2147483648 ≤ cap) (hhi : cap < 2147483648) (hsound : h.Sound)
    (hpp : Holds h s.pp 4) (hbuf : Holds h s.buf s.bufCap) :
    Inv { s with heap := (mallocBlock g cap h).2, bindBuf := (mallocBlock g cap h).1, bindCap := cap } := by
  obtain ⟨hsound, hbind, hold⟩ := malloc_holds (g := g) cap hsound hlo hhi
  have hpp := hold _ _ hpp
  have hbuf := hold _ _ hbuf
  exact ⟨hsound, hpp.1, hbuf.1, hbind, hs.pp_buf, hpp.2, hbuf.2⟩

end

/-! ## What a call notes -/

/-- Safe, and not an allocation that failed. -/
def Event.Calm (e : Event) : Prop := e.Safe ∧ ¬e.Exhausted

/-- Safe, and no byte written. -/
def Event.Mute (e : Event) : Prop := e.Safe ∧ ¬e.Writes

/-- What is noted between the two states has the property. -/
def Adds (P : Event → Prop) (s s' : State) : Prop := ∀ e ∈ s'.log, e ∈ s.log ∨ P e

theorem Adds.trans (h₁ : Adds P s s') (h₂ : Adds P s' s'') : Adds P s s'' := fun e he =>
  (h₂ e he).elim (h₁ e) .inr

theorem note_adds {a : Access} (hP : P ⟨a, s.heap.live⟩) : Adds P s (s.note a) := by
  intro e he
  rcases List.mem_cons.mp he with rfl | he
  · exact .inr hP
  · exact .inl he

/-- A part of a call that asks the guest for the block `p`. -/
def Event.Asks (p : Int) (e : Event) : Prop := e.Mute ∧ (p ≠ 0 → e.Calm)

theorem free_calm {addr cap : Int} (hold : Holds h addr cap) : Event.Calm ⟨.free addr, h.live⟩ := by
  refine ⟨?_, id⟩
  by_cases hne : addr = 0
  · exact .inl hne
  · exact .inr ⟨_, (hold hne).2, rfl⟩

theorem free_asks {addr cap p : Int} (hold : Holds h addr cap) : Event.Asks p ⟨.free addr, h.live⟩ :=
  ⟨⟨(free_calm hold).1, id⟩, fun _ => free_calm hold⟩

theorem malloc_asks {n p : Int} {live : List Block} : Event.Asks p ⟨.malloc n p, live⟩ :=
  ⟨⟨trivial, id⟩, fun hne => ⟨trivial, hne⟩⟩

/-! ## The two buffers -/

theorem sqlCap_bounds (n cap : Int) : -2147483648 ≤ sqlCap n cap ∧ sqlCap n cap < 2147483648 := by
  have hn := i32_bounds (n + 1)
  have hcap := i32_bounds (cap * 2)
  simp only [sqlCap]
  omega

/-- There is room for the NUL, unless the length is the largest `Int`. -/
theorem lt_sqlCap {n cap : Int} (hn : 0 ≤ n) (hmax : n < 2147483647) : n < sqlCap n cap := by
  have hsucc : i32 (n + 1) = n + 1 := i32_of_bounds (by omega) (by omega)
  simp only [sqlCap, hsucc]
  omega

/-- Behind `sqlBuf`. -/
structure SqlGrown (g : GuestHeap.Guest) (n : Int) (s s' : State) : Prop where
  inv : Inv s'
  answer : (s'.buf, s'.heap) = sqlAnswer g n s
  pp : s'.pp = s.pp
  room : 0 ≤ n → n < 2147483647 → n < s'.bufCap
  log : Adds (Event.Asks s'.buf) s s'

theorem sqlBuf_grows (n : Int) (hs : Inv s) :
    (sqlBuf g n).wp (fun _ s' => SqlGrown g n s s') E s := by
  unfold sqlBuf
  simp only [Prog.wp_bind, Prog.wp_get, Prog.wp_onlyIf]
  split
  · next hgrow =>
    obtain ⟨hlo, hhi⟩ := sqlCap_bounds n s.bufCap
    obtain ⟨hfree, hkeep⟩ := free_holds (g := g) s.buf hs.sound
    have hbind := hkeep _ _ hs.bindBuf fun hne heq => hs.buf_bindBuf (heq ▸ hne) heq.symm
    have hinv := hs.setBuf (g := g) hlo hhi hfree (hkeep _ _ hs.pp hs.pp_buf) hbind
    refine ⟨hinv.kept (same_kept _ _), ?_, rfl, lt_sqlCap, ?_⟩
    · exact (if_pos hgrow).symm
    · exact (note_adds (free_asks hs.buf)).trans (note_adds malloc_asks)
  · next hfits => exact ⟨hs, (if_neg hfits).symm, rfl, fun _ _ => not_le.mp hfits, fun e he => .inl he⟩

/-- Behind `scratch`. -/
structure ScratchGrown (g : GuestHeap.Guest) (n : Int) (s s' : State) : Prop where
  inv : Inv s'
  answer : (s'.bindBuf, s'.heap) = scratchAnswer g n s
  room : n ≤ s'.bindCap
  log : Adds (Event.Asks s'.bindBuf) s s'

theorem scratchCap_bounds {n : Int} (cap : Int) (hn : n < 2147483648) :
    -2147483648 ≤ scratchCap n cap ∧ scratchCap n cap < 2147483648 ∧ n ≤ scratchCap n cap := by
  have hcap := i32_bounds (cap * 2)
  simp only [scratchCap, SQL_BUF]
  omega

theorem scratch_grows {n : Int} (hn : n < 2147483648) (hs : Inv s) :
    (scratch g n).wp (fun p s' => p = s'.bindBuf ∧ ScratchGrown g n s s') E s := by
  obtain ⟨hlo, hhi, hroom⟩ := scratchCap_bounds s.bindCap hn
  unfold scratch
  simp only [Prog.wp_bind, Prog.wp_get, Prog.wp_onlyIf]
  split
  · next hgrow =>
    by_cases hbuf : s.bindBuf ≠ 0
    · obtain ⟨hfree, hkeep⟩ := free_holds (g := g) s.bindBuf hs.sound
      have hinv := hs.setBindBuf (g := g) hlo hhi hfree (hkeep _ _ hs.pp hs.pp_bindBuf)
        (hkeep _ _ hs.buf hs.buf_bindBuf)
      rw [if_pos hbuf]
      refine ⟨rfl, hinv.kept (same_kept _ _), ?_, hroom, ?_⟩
      · rw [scratchAnswer, if_pos hgrow, if_pos hbuf]
        rfl
      · exact (note_adds (free_asks hs.bindBuf)).trans (note_adds malloc_asks)
    · have hinv := hs.setBindBuf (g := g) hlo hhi hs.sound hs.pp hs.buf
      rw [if_neg hbuf]
      refine ⟨rfl, hinv.kept (same_kept _ _), ?_, hroom, note_adds malloc_asks⟩
      rw [scratchAnswer, if_pos hgrow, if_neg hbuf]
      rfl
  · next hfits => exact ⟨rfl, hs, (if_neg hfits).symm, by omega, fun e he => .inl he⟩

/-! ## The bytes -/

-- or the unifier runs the loop over the pages
attribute [local irreducible] BulkMemory.write

section
variable {addr : Int} {data : List UInt8}

theorem memWrite_size : (memWrite addr data s).2.heap.mem.size = s.heap.mem.size := keeps_write.state rfl

theorem memWrite_kept : Kept s (memWrite addr data s).2 := ⟨rfl, memWrite_size.ge, rfl, rfl, rfl, rfl, rfl⟩

theorem memWrite_adds (hP : P ⟨.write addr (written s.heap.mem addr data), s.heap.live⟩) :
    Adds P s (memWrite addr data s).2 := note_adds hP

theorem written_le : written s.heap.mem addr data ≤ data.length := by
  unfold written
  split <;> omega

/-- Into a block. -/
theorem memWrite_in {b : Block} (hs : Inv s) (hb : b ∈ s.heap.live) (hlo : b.addr ≤ addr)
    (hend : addr + data.length ≤ b.addr + b.size) :
    (memWrite addr data).wp (fun _ s' => Kept s s' ∧ Adds Event.Calm s s') E s := by
  obtain ⟨hpos, -, hin⟩ := hs.sound.inside b hb
  obtain ⟨m, hwrite, -⟩ :
      ∃ m, write addr data s.heap.mem = (some (), m) ∧ Stored addr data 0 data.length s.heap.mem m :=
    write_stores (by omega) (by omega)
  have hcalm : Event.Calm ⟨.write addr (written s.heap.mem addr data), s.heap.live⟩ := by
    have hle : written s.heap.mem addr data ≤ data.length := written_le
    exact ⟨fun a ha hlt => ⟨b, hb, by omega, by omega⟩, id⟩
  exact Prog.wp_of_some (congrArg Prod.fst hwrite) ⟨memWrite_kept, memWrite_adds hcalm⟩

/-- Nothing is written. -/
theorem write_mute {n : Int} {live : List Block} (hn : n ≤ 0) : Event.Mute ⟨.write addr n, live⟩ :=
  ⟨fun a ha hlt => absurd hlt (by omega), fun hpos => absurd hpos (by show ¬0 < n; omega)⟩

theorem memWrite_empty (hdata : data.length = 0) (haddr : 0 ≤ addr) (hend : addr ≤ s.heap.mem.size) :
    (memWrite addr data).wp
      (fun _ s' => s'.heap.mem.size = s.heap.mem.size ∧ Kept s s' ∧ Adds Event.Mute s s') E s := by
  obtain ⟨m, hwrite, -⟩ : ∃ m, write addr data s.heap.mem = (some (), m) ∧ Stored addr data 0 _ s.heap.mem m :=
    write_stores haddr (by omega)
  have hnone : written s.heap.mem addr data ≤ 0 := written_le.trans (by omega)
  exact Prog.wp_of_some (congrArg Prod.fst hwrite) ⟨memWrite_size, memWrite_kept, memWrite_adds (write_mute hnone)⟩

/-- Beyond the memory. -/
theorem memWrite_beyond (haddr : 0 ≤ addr) (hend : s.heap.mem.size < addr + data.length)
    (hint : addr + data.length < 2147483648) :
    (memWrite addr data).wp (fun _ _ => False) (fun s' => Kept s s' ∧ Adds Event.Mute s s') s := by
  have hcheck : (checkWrite addr data 0 data.length s.heap.mem).1 ≠ some () := by
    rw [Ne, checkWrite_iff data (by omega) (by omega) (by omega)]
    simp only [InRange, Wraps]
    omega
  have hnone : (checkWrite addr data 0 data.length s.heap.mem).1 = none := Option.eq_none_iff_forall_ne_some.mpr
    fun _ => hcheck
  have hrun : checkWrite addr data 0 data.length s.heap.mem = (none, _) := Prod.ext hnone rfl
  have hwrite : (write addr data s.heap.mem).1 = none := by
    rw [write, writeRange_eq, Prog.bind_of_none hrun]
  have hzero : written s.heap.mem addr data = 0 := if_neg hcheck
  exact Prog.wp_of_none hwrite ⟨memWrite_kept, memWrite_adds (write_mute hzero.le)⟩

end

/-! ## The calls -/

theorem arrayOf_returns {b : List UInt8} (hb : (b.length : Int) < 2147483648) : arrayOf b s = (some b, s) := by
  have hfits : decide (2147483648 ≤ b.length) = false := decide_eq_false (by omega)
  simp only [arrayOf, hfits]
  rfl

theorem arrayOf_throws {b : List UInt8} (hb : 2147483648 ≤ (b.length : Int)) :
    (arrayOf b).wp (fun _ _ => False) (fun s' => s' = s) s := by
  have hlong : decide (2147483648 ≤ b.length) = true := decide_eq_true (by omega)
  simp only [arrayOf, hlong]
  rfl

section
variable {b : List UInt8}

/-- The text and its NUL are in the buffer's block. -/
theorem writeText_in (hs : Inv s) (hne : s.buf ≠ 0) (hlt : b.length < s.bufCap) :
    (do memWrite s.buf b; memWriteByte (i32 (s.buf + b.length)) 0; note (.read s.buf (b.length + 1)); pure s.buf :
      Op Int).wp (fun _ s' => Kept s s' ∧ Adds Event.Calm s s') E s := by
  obtain ⟨hcap, hblock⟩ := hs.buf hne
  obtain ⟨hpos, -, hend⟩ := hs.sound.inside _ hblock
  have hsize : s.heap.mem.size < 2147483648 := Memory.size_lt
  have hnul : i32 (s.buf + b.length) = s.buf + b.length :=
    i32_of_bounds (by simp only at hpos; omega) (by simp only at hend; omega)
  rw [hnul]
  refine Prog.wp_then (memWrite_in hs hblock le_rfl (by simp only; omega)) fun _ s₁ ⟨hk₁, hlog₁⟩ => ?_
  have hblock₁ : (⟨s.buf, max s.bufCap 1⟩ : Block) ∈ s₁.heap.live := by
    rw [hk₁.live]
    exact hblock
  refine Prog.wp_then (memWrite_in (hs.kept hk₁) hblock₁ (by simp only; omega) (by
    simp only [List.length_singleton, Nat.cast_one]
    omega)) fun _ s₂ ⟨hk₂, hlog₂⟩ => ?_
  have hread : Event.Calm ⟨.read s.buf (b.length + 1), s₂.heap.live⟩ := by
    rw [hk₂.live]
    exact ⟨⟨_, hblock₁, rfl, by simp only; omega⟩, id⟩
  exact ⟨(hk₁.trans hk₂).trans (note_kept _), (hlog₁.trans hlog₂).trans (note_adds hread)⟩

/-- Nothing of the text is anywhere. -/
theorem writeText_beyond {rest : Op Int} (hint : (b.length : Int) < 2147483648)
    (hsmall : s.heap.mem.size < b.length ∨ s.heap.mem.size = 0) :
    (do memWrite 0 b; memWriteByte (i32 (0 + b.length)) 0; rest : Op Int).wp (fun _ _ => False)
      (fun s' => Kept s s' ∧ Adds Event.Mute s s') s := by
  by_cases hempty : b.length = 0
  · -- nothing but the NUL, and no byte for it
    have hnone : s.heap.mem.size = 0 := by
      have := s.heap.mem.size_nonneg
      omega
    have hnul : i32 (0 + b.length) = 0 := by
      rw [hempty]
      exact i32_of_bounds (by decide) (by decide)
    rw [hnul]
    refine Prog.wp_then (memWrite_empty hempty le_rfl hnone.ge) fun _ s₁ ⟨hsize₁, hk₁, hlog₁⟩ => ?_
    have hnone₁ : s₁.heap.mem.size < 0 + ([0] : List UInt8).length := by
      rw [hsize₁, hnone]
      decide
    exact Prog.wp_stop (memWrite_beyond le_rfl hnone₁ (by decide)) fun s₂ ⟨hk₂, hlog₂⟩ =>
      ⟨hk₁.trans hk₂, hlog₁.trans hlog₂⟩
  · exact Prog.wp_stop (memWrite_beyond le_rfl (by omega) (by omega)) fun _ h => h

end

theorem sqlPtr_returns {text : String} (hs : Inv s)
    (hserved : SqlServed (toByteArray text).length (sqlAnswer g (toByteArray text).length s)) :
    (sqlPtr g text).wp (fun _ s' => Inv s' ∧ s'.pp = s.pp ∧ Adds Event.Calm s s') E s := by
  obtain ⟨hne, hmax⟩ := hserved
  refine Prog.wp_next (arrayOf_returns (by omega)) ?_
  refine Prog.wp_then (sqlBuf_grows _ hs) fun _ s₁ h₁ => ?_
  rw [← h₁.answer] at hne
  have hlog₁ : Adds Event.Calm s s₁ := fun e he => (h₁.log e he).imp id fun h => h.2 hne
  rw [Prog.wp_bind, Prog.wp_get]
  refine Prog.wp_mono (writeText_in h₁.inv hne (h₁.room (by omega) hmax)) (fun _ s₂ h₂ => ?_) fun _ h => h
  exact ⟨h₁.inv.kept h₂.1, h₂.1.pp.trans h₁.pp, hlog₁.trans h₂.2⟩

theorem sqlPtr_throws {text : String} (hs : Inv s)
    (hrefused : SqlRefused (toByteArray text).length (sqlAnswer g (toByteArray text).length s)) :
    (sqlPtr g text).wp (fun _ _ => False) (fun s' => Inv s' ∧ Adds Event.Mute s s') s := by
  by_cases hlong : 2147483648 ≤ ((toByteArray text).length : Int)
  · refine Prog.wp_stop (arrayOf_throws hlong) fun s₁ h₁ => ?_
    rw [h₁]
    exact ⟨hs, fun e he => .inl he⟩
  obtain ⟨hzero, hsmall⟩ := hrefused.resolve_left hlong
  refine Prog.wp_next (arrayOf_returns (by omega)) ?_
  refine Prog.wp_then (sqlBuf_grows _ hs) fun _ s₁ h₁ => ?_
  rw [← h₁.answer] at hzero hsmall
  simp only at hzero hsmall
  have hlog₁ : Adds Event.Mute s s₁ := fun e he => (h₁.log e he).imp id fun h => h.1
  rw [Prog.wp_bind, Prog.wp_get, hzero]
  exact Prog.wp_mono (writeText_beyond (by omega) hsmall) (fun _ _ h => h) fun s₂ h₂ =>
    ⟨h₁.inv.kept h₂.1, hlog₁.trans h₂.2⟩

theorem bindBytes_returns {bytes : List UInt8} (hs : Inv s)
    (hserved : BytesServed bytes.length (scratchAnswer g bytes.length s)) :
    (bindBytes g bytes).wp (fun _ s' => Inv s' ∧ Adds Event.Calm s s') E s := by
  obtain ⟨hne, hint⟩ := hserved
  refine Prog.wp_next (arrayOf_returns hint) ?_
  refine Prog.wp_then (scratch_grows hint hs) fun p s₁ h => ?_
  obtain ⟨rfl, h₁⟩ := h
  rw [← h₁.answer] at hne
  obtain ⟨hcap, hblock⟩ := h₁.inv.bindBuf hne
  have hroom := h₁.room
  have hlog₁ : Adds Event.Calm s s₁ := fun e he => (h₁.log e he).imp id fun h => h.2 hne
  refine Prog.wp_then (memWrite_in h₁.inv hblock le_rfl (by simp only; omega)) fun _ s₂ h₂ => ?_
  have hread : Event.Calm ⟨.read s₁.bindBuf bytes.length, s₂.heap.live⟩ := by
    rw [h₂.1.live]
    exact ⟨⟨_, hblock, rfl, by simp only; omega⟩, id⟩
  have hinv : Inv (s₂.note (.read s₁.bindBuf bytes.length)) := h₁.inv.kept (h₂.1.trans (note_kept _))
  exact ⟨hinv.kept ran_kept, (hlog₁.trans h₂.2).trans (note_adds hread)⟩

theorem bindBytes_throws {bytes : List UInt8} (hs : Inv s)
    (hrefused : BytesRefused bytes.length (scratchAnswer g bytes.length s)) :
    (bindBytes g bytes).wp (fun _ _ => False) (fun s' => Inv s' ∧ Adds Event.Mute s s') s := by
  by_cases hlong : 2147483648 ≤ (bytes.length : Int)
  · refine Prog.wp_stop (arrayOf_throws hlong) fun s₁ h₁ => ?_
    rw [h₁]
    exact ⟨hs, fun e he => .inl he⟩
  obtain ⟨hzero, hsmall⟩ := hrefused.resolve_left hlong
  refine Prog.wp_next (arrayOf_returns (by omega)) ?_
  refine Prog.wp_then (scratch_grows (by omega) hs) fun p s₁ h => ?_
  obtain ⟨hp, h₁⟩ := h
  rw [← h₁.answer] at hzero hsmall
  simp only at hzero hsmall
  rw [hzero] at hp
  subst hp
  have hlog₁ : Adds Event.Mute s s₁ := fun e he => (h₁.log e he).imp id fun h => h.1
  exact Prog.wp_stop (memWrite_beyond le_rfl (by omega) (by omega)) fun s₂ h₂ =>
    ⟨h₁.inv.kept h₂.1, hlog₁.trans h₂.2⟩

theorem call_calm (hs : Inv s) : (call g).wp (fun _ s' => Inv s' ∧ s'.pp = s.pp ∧ Adds Event.Calm s s') E s :=
  ⟨hs.kept ran_kept, rfl, fun _ he => .inl he⟩

/-- Each block is the session's when it is freed. -/
theorem close_calm (hs : Inv s) : (close g).wp (fun _ s' => Adds Event.Calm s s') E s := by
  unfold close
  refine Prog.wp_then (call_calm hs) fun _ s₁ ⟨h₁, _, hlog₁⟩ => ?_
  rw [Prog.wp_bind, Prog.wp_get]
  refine Prog.wp_then (R := fun _ s₂ => s₂.heap.Sound ∧ Holds s₂.heap s₁.buf s₁.bufCap ∧ Holds s₂.heap s₁.pp 4 ∧
    Adds Event.Calm s s₂) ?_ fun _ s₂ ⟨hsound, hbuf, hpp, hlog₂⟩ => ?_
  · rw [Prog.wp_onlyIf]
    split
    · obtain ⟨hsound, hkeep⟩ := free_holds (g := g) s₁.bindBuf h₁.sound
      exact ⟨hsound, hkeep _ _ h₁.buf h₁.buf_bindBuf, hkeep _ _ h₁.pp h₁.pp_bindBuf,
        hlog₁.trans (note_adds (free_calm h₁.bindBuf))⟩
    · exact ⟨h₁.sound, h₁.buf, h₁.pp, hlog₁⟩
  · have hpp' : Holds (s₂.heap.free g s₁.buf) s₁.pp 4 := (free_holds s₁.buf hsound).2 _ _ hpp h₁.pp_buf
    exact (hlog₂.trans (note_adds (free_calm hbuf))).trans (note_adds (free_calm hpp'))

theorem initAnswer_inv (hs : Inv s) : Inv (initAnswer g s) := by
  have hpp := hs.setPp (g := g)
  have hlo : -2147483648 ≤ SQL_BUF := by decide
  exact hpp.setBuf hlo (by decide) hpp.sound hpp.pp hpp.bindBuf

/-- What the constructor has noted before it writes. -/
def initState (g : GuestHeap.Guest) (s : State) : State :=
  let (pp, h) := mallocBlock g 4 s.heap
  { initAnswer g s with
    log := ⟨.malloc SQL_BUF (initAnswer g s).buf, (initAnswer g s).heap.live⟩ :: ⟨.malloc 4 pp, h.live⟩ :: s.log }

theorem initState_adds (hpp : P ⟨.malloc 4 (initAnswer g s).pp, (mallocBlock g 4 s.heap).2.live⟩)
    (hbuf : P ⟨.malloc SQL_BUF (initAnswer g s).buf, (initAnswer g s).heap.live⟩) : Adds P s (initState g s) := by
  intro e he
  rcases List.mem_cons.mp he with rfl | he
  · exact .inr hbuf
  · rcases List.mem_cons.mp he with rfl | he
    · exact .inr hpp
    · exact .inl he

/-- How a call ends. -/
structure Ends (c : Call) (s : State) (r : Option Unit) (s' : State) : Prop where
  inv : c.phase r ≠ .closed → Inv s'
  log : Adds Event.Calm s s' ∨ r = none ∧ Adds Event.Mute s s'

theorem Ends.calm {c : Call} {r : Option Unit} (h : Inv s' ∧ Adds Event.Calm s s') : Ends c s r s' :=
  ⟨fun _ => h.1, .inl h.2⟩

theorem Ends.mute {c : Call} (h : Inv s' ∧ Adds Event.Mute s s') : Ends c s none s' :=
  ⟨fun _ => h.1, .inr ⟨rfl, h.2⟩⟩

section
variable {c : Call}

theorem init_ends {guestPath : String} {rc : Int} (hs : Inv s) (hserved : Served g s (.init guestPath rc)) :
    (init g guestPath rc).wp (fun u => Ends c s (some u)) (Ends c s none) s := by
  have hinv : Inv (initState g s) := (initAnswer_inv hs).kept (same_kept _ _)
  show (sqlPtr g guestPath >>= fun _ => call g >>= fun _ => note (.read (initState g s).pp 4) >>= fun _ =>
    Prog.throwIf (rc ≠ 0)).wp _ _ (initState g s)
  rcases hserved with ⟨hpp, hbuf, hserved⟩ | hrefused
  · have hlog : Adds Event.Calm s (initState g s) := initState_adds (malloc_asks.2 hpp) (malloc_asks.2 hbuf)
    refine Prog.wp_then (sqlPtr_returns hinv hserved) fun _ s₁ ⟨h₁, hpp₁, hlog₁⟩ => ?_
    refine Prog.wp_then (call_calm h₁) fun _ s₂ ⟨h₂, hpp₂, hlog₂⟩ => ?_
    have hslot : (⟨(initState g s).pp, max 4 1⟩ : Block) ∈ s₂.heap.live := by
      rw [← hpp₁, ← hpp₂]
      exact (h₂.pp (by rw [hpp₂, hpp₁]; exact hpp)).2
    have hread : Event.Calm ⟨.read (initState g s).pp 4, s₂.heap.live⟩ := ⟨⟨_, hslot, rfl, le_max_left _ _⟩, id⟩
    have hlog₃ : Adds Event.Calm s (s₂.note (.read (initState g s).pp 4)) :=
      ((hlog.trans hlog₁).trans hlog₂).trans (note_adds hread)
    refine Prog.wp_then (R := fun _ s₃ => Inv s₃ ∧ Adds Event.Calm s s₃)
      ⟨h₂.kept (note_kept _), hlog₃⟩ fun _ s₃ h₃ => ?_
    rw [Prog.wp_throwIf]
    split <;> exact .calm h₃
  · have hlog : Adds Event.Mute s (initState g s) := initState_adds malloc_asks.1 malloc_asks.1
    exact Prog.wp_stop (sqlPtr_throws hinv hrefused) fun s₁ h₁ => .mute ⟨h₁.1, hlog.trans h₁.2⟩

theorem sqlPtr_ends {text : String} (hs : Inv s) (hserved : Served g s (.sqlPtr text)) :
    (sqlPtr g text >>= fun _ => call g).wp (fun u => Ends c s (some u)) (Ends c s none) s := by
  rcases hserved with hserved | hrefused
  · refine Prog.wp_then (sqlPtr_returns hs hserved) fun _ s₁ ⟨h₁, _, hlog₁⟩ => ?_
    exact .calm ⟨h₁.kept ran_kept, hlog₁⟩
  · exact Prog.wp_stop (sqlPtr_throws hs hrefused) fun s₁ h₁ => .mute h₁

theorem bindBytes_ends {b : List UInt8} (hs : Inv s)
    (hserved : BytesServed b.length (scratchAnswer g b.length s) ∨ BytesRefused b.length (scratchAnswer g b.length s)) :
    (bindBytes g b).wp (fun u => Ends c s (some u)) (Ends c s none) s := by
  rcases hserved with hserved | hrefused
  · exact Prog.wp_mono (bindBytes_returns (E := fun _ => False) hs hserved) (fun _ _ h => .calm h) fun _ h => h.elim
  · exact Prog.wp_mono (bindBytes_throws hs hrefused) (fun _ _ h => h.elim) fun _ h => .mute h

/-- **A call**, from blocks that are the session's. -/
theorem exec_ends (hs : Inv s) (hserved : Served g s c) : Ends c s (c.exec g s).1 (c.exec g s).2 := by
  refine Prog.wp_run (R := Ends c s) ?_
  cases c with
  | init guestPath rc => exact init_ends hs hserved
  | sqlPtr text => exact sqlPtr_ends hs hserved
  | bindOne v =>
    cases v with
    | string text => exact bindBytes_ends hs (hserved _ rfl)
    | bytes b => exact bindBytes_ends hs (hserved _ rfl)
    | other => exact .calm ⟨hs, fun _ he => .inl he⟩
    | _ => exact .calm ⟨hs.kept ran_kept, fun _ he => .inl he⟩
  | other => exact .calm ⟨hs.kept ran_kept, fun _ he => .inl he⟩
  | close =>
    exact Prog.wp_mono (close_calm (E := fun _ => False) hs) (fun _ _ h => ⟨fun hne => absurd rfl hne, .inl h⟩)
      fun _ h => h.elim

theorem run_ends (hs : Inv s) (hserved : Served g s c) :
    Ends c { s with log := [] } (c.run g s).1 (c.run g s).2 := by
  refine exec_ends (hs.kept (same_kept _ _)) ?_
  cases c <;> exact hserved

theorem Ends.safe (h : Ends c { s with log := [] } (c.run g s).1 (c.run g s).2) : Safe g s c := by
  have hnew : ∀ {P : Event → Prop}, Adds P { s with log := [] } (c.run g s).2 → ∀ e ∈ (c.run g s).2.log, P e :=
    fun hadds e he => (hadds e he).resolve_left List.not_mem_nil
  rcases h.log with hcalm | ⟨hthrew, hmute⟩
  · exact ⟨fun e he => (hnew hcalm e he).1, fun ⟨e, he, hx⟩ => absurd hx (hnew hcalm e he).2⟩
  · exact ⟨fun e he => (hnew hmute e he).1, fun _ => ⟨hthrew, fun e he => (hnew hmute e he).2⟩⟩

end

/-- The blocks, until the session is closed. -/
def Open (s : State) : Prop := s.phase ≠ .closed → Inv s

theorem Call.Allowed.open {c : Call} (h : c.Allowed s) : s.phase ≠ .closed := by
  intro hclosed
  cases c <;> exact absurd (hclosed.symm.trans h) (by decide)

theorem step_open {c : Call} (hs : Open s) (hserved : c.Allowed s → Served g s c) (hstep : step g s c = some s') :
    Open s' := by
  unfold step at hstep
  split at hstep
  · next hallowed =>
    cases hstep
    intro hne
    exact ((run_ends (hs hallowed.open) (hserved hallowed)).inv hne).kept (same_kept _ _)
  · cases hstep

/-- **Every byte that a session writes is in a block of its own**, over every run in which
the guest has a block wherever one is asked for, or the text has no room at any address:
no block is used or freed behind its `free`, and an exhausted allocation throws with
nothing written. -/
theorem buffers_safe (g : GuestHeap.Guest) (m : Memory) (calls : List Call)
    (hserved : EveryStep (step g) (fun s c => c.Allowed s → Served g s c) (start m) calls) :
    EveryStep (step g) (fun s c => c.Allowed s → Safe g s c) (start m) calls :=
  everyStep_of_invariant (I := Open) (fun _ _ _ hs hok hstep => step_open hs hok hstep)
    (fun _ _ hs hok hallowed => (run_ends (hs hallowed.open) (hok hallowed)).safe) (fun _ => start_inv m) hserved

/-- The slot, the buffer, and whatever is asked for later at one address. -/
def guestWith (later : Int) : GuestHeap.Guest where
  alloc time := if time = 0 then 16 else if time = 1 then 64 else later
  grow _ := 0
  scribble _ _ := 0

/-- A text and a blob, and the end. -/
theorem buffers_safe_session :
    EveryStep (step (guestWith 8192)) (fun s c => c.Allowed s → Safe (guestWith 8192) s c) (start onePage)
      [.init "a" 0, .sqlPtr "b", .bindOne (.bytes [1, 2]), .close] :=
  buffers_safe _ _ _ (by decide +kernel)

/-- No block for the first blob: its byte is put at address 0, and the call returns. -/
theorem exhausted_write :
    ¬EveryStep (step (guestWith 0)) (fun s c => c.Allowed s → Safe (guestWith 0) s c) (start onePage)
      [.init "a" 0, .bindOne (.bytes [1])] ∧
    (run (step (guestWith 0)) (start onePage) [.init "a" 0]).map
      (fun s => (Call.run (guestWith 0) s (.bindOne (.bytes [1]))).1) = some (some ()) := by
  refine ⟨fun h => ?_, by decide +kernel⟩
  have hsafe := (h.2 _ rfl).1 (by decide +kernel)
  obtain ⟨b, hb, hhas⟩ := hsafe.events ⟨.write 0 1, [⟨64, 4096⟩, ⟨16, 4⟩]⟩ (by decide +kernel) 0 le_rfl (by decide)
  revert b
  decide

end SessionBuffers

end Sqlol

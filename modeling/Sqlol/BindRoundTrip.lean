/-
What is bound to `SELECT ?,?,...,?` comes back.

`scratch` hands out the session's one block again, or a larger one in its
place, and a write into it leaves SQLite's copies alone (`write_still`); a bind
copies the bytes before the next one writes (`bindOne_binds`). So behind any
calls, on any statements that share the scratch block, `bind_decode` has every
list of parameters come back as `canonical` has it, when no `malloc` failed.

A failed `malloc` is noted and stays noted (`Exhausted`), so that what is said
up to one (`Ok`) can be put together call by call.
-/
import Sqlol.Bindings
import Mathlib.Data.List.Forall2

namespace Sqlol

namespace BindRoundTrip

open BulkMemory GuestHeap
open Statements (Value Param Cursor SqliteRow ROW DONE)

variable {g : Guest} {s s' : State} {k i : Nat}

/-! ## What no call takes away -/

/-- A kind of cell that keeps a copy. -/
def Copies (cell : Int → Nat → Cell) : Prop := ∀ q n, (cell q n).block = some ⟨q, max n 1⟩

/-- What the parts of a call with the statement `k` keep. -/
structure Closed (g : Guest) (k : Nat) (P : State → Prop) : Prop where
  call : Prog.Keeps P (call g)
  scratch : ∀ n, Prog.Keeps P (scratch g n)
  onMem : ∀ {α : Type} {p : Prog Memory α}, (∀ n, Prog.Keeps (fun m => m.size = n) p) → Prog.Keeps P (onMem p)
  unbind : ∀ i, Prog.Keeps P (unbind g k i)
  setCell : ∀ i c, c.block = none → Prog.Keeps P (setCell k i c)
  putCopy : ∀ i cell p n, Copies cell → Prog.Keeps P (putCopy g k i cell p n)
  setCursor : ∀ c, Prog.Keeps P (setCursor k c)

section
variable {P : State → Prop}

theorem Closed.bind {put : Op Int} (hP : Closed g k P) (hput : Prog.Keeps P put) :
    Prog.Keeps P (sqlite3Bind g k i put) := by
  refine Prog.keeps_get.bind fun s => ?_
  split
  · exact Prog.keeps_pure _
  · split
    · exact Prog.keeps_pure _
    · exact (hP.unbind i).bind fun _ => hput

theorem Closed.putCell {c : Cell} (hP : Closed g k P) (hc : c.block = none) : Prog.Keeps P (putCell k i c) :=
  (hP.setCell i c hc).bind fun _ => Prog.keeps_pure 0

theorem Closed.bindBytes {cell : Int → Nat → Cell} (hP : Closed g k P) (hcell : Copies cell) (b : List UInt8) :
    Prog.Keeps P (do
      let p ← BindRoundTrip.scratch g b.length
      BindRoundTrip.onMem (write p b)
      sqlite3Bind g k i (BindRoundTrip.putCopy g k i cell p b.length)) :=
  (hP.scratch _).bind fun p => (hP.onMem fun _ => keeps_write).bind fun _ => hP.bind (hP.putCopy i cell p _ hcell)

theorem Closed.bindOne (hP : Closed g k P) (p : Param) : Prog.Keeps P (bindOne g k i p) := by
  cases p with
  | null => exact hP.bind (hP.putCell rfl)
  | long n => exact hP.bind (hP.putCell rfl)
  | int n => exact hP.bind (hP.putCell rfl)
  | boolean b => exact hP.bind (hP.putCell rfl)
  | double x => exact hP.bind (hP.putCell (by split <;> rfl))
  | float x => exact hP.bind (hP.putCell (by split <;> rfl))
  | string s => exact hP.bindBytes (fun _ _ => rfl) (toByteArray s)
  | bytes b => exact hP.bindBytes (fun _ _ => rfl) b
  | other => exact fun _ h => h

theorem Closed.bindFrom (hP : Closed g k P) (params : List Param) : Prog.Keeps P (bindFrom g k i params) := by
  induction params generalizing i with
  | nil => exact Prog.keeps_pure ()
  | cons p ps ih => exact (hP.bindOne p).bind fun _ => (Prog.keeps_throwIf _).bind fun _ => ih

theorem Closed.readColumn {α : Type} {f : Cell → α} (hP : Closed g k P) : Prog.Keeps P (readColumn g k i f) :=
  hP.call.bind fun _ => Prog.keeps_get.bind fun _ => Prog.keeps_pure _

theorem Closed.decode (hP : Closed g k P) : Prog.Keeps P (decode g k i) := by
  refine hP.readColumn.bind fun ty => ?_
  split
  · exact hP.readColumn.bind fun _ => Prog.keeps_pure _
  · exact hP.readColumn.bind fun _ => Prog.keeps_pure _
  · refine hP.readColumn.bind fun _ => hP.readColumn.bind fun _ => (hP.onMem fun _ => ?_).bind fun _ =>
      Prog.keeps_pure _
    exact keeps_readBytes.bind fun _ => Prog.keeps_pure _
  · exact hP.readColumn.bind fun _ => hP.readColumn.bind fun _ => (hP.onMem fun _ => keeps_readBytes).bind fun _ =>
      Prog.keeps_pure _
  · exact Prog.keeps_pure _

theorem Closed.step (hP : Closed g k P) : Prog.Keeps P (sqlite3Step g k) := by
  refine hP.call.bind fun _ => Prog.keeps_get.bind fun _ => ?_
  split
  · exact (hP.setCursor _).bind fun _ => Prog.keeps_pure _
  · exact (hP.setCursor _).bind fun _ => Prog.keeps_pure _

/-- A turn of the loop, with what is behind a row. -/
theorem Closed.turn {n : Nat} {rows : List SqliteRow} {next : List Value → Op (Option (List SqliteRow))}
    (hP : Closed g k P) (hnext : ∀ values, Prog.Keeps P (next values)) :
    Prog.Keeps P (do
      let src ← sqlite3Step g k
      if src = ROW then do
        let values ← Prog.listFrom (BindRoundTrip.decode g k) 0 n
        next values
      else if src = DONE then pure (some rows)
      else if transient src then pure none
      else Prog.throw) := by
  refine hP.step.bind fun src => ?_
  split
  · exact (Prog.Keeps.listFrom (fun _ => hP.decode) 0 n).bind hnext
  · split
    · exact Prog.keeps_pure _
    · split
      · exact Prog.keeps_pure _
      · exact fun _ h => h

theorem Closed.turns {cols : List String} {room : Nat} {rows : List SqliteRow} (hP : Closed g k P) :
    Prog.Keeps P (turns g k cols room rows) := by
  induction room generalizing rows with
  | zero =>
    unfold BindRoundTrip.turns
    exact hP.turn fun _ _ h => h
  | succ room ih =>
    unfold BindRoundTrip.turns
    exact hP.turn fun _ => ih

theorem Closed.decodeRows (hP : Closed g k P) : Prog.Keeps P (decodeRows g k) :=
  (hP.call.bind fun _ => Prog.keeps_pure _).bind fun _ =>
    (Prog.Keeps.listFrom (fun _ => hP.call.bind fun _ => Prog.keeps_pure _) 0 _).bind fun _ => hP.turns

theorem Closed.rowsOf (hP : Closed g k P) (params : List Param) : Prog.Keeps P (rowsOf g k params) :=
  (hP.bindFrom params).bind fun _ => hP.decodeRows

theorem Closed.unbindTo (hP : Closed g k P) (n : Nat) : Prog.Keeps P (unbindTo g k n) := by
  induction n with
  | zero => exact Prog.keeps_pure ()
  | succ n ih => exact ih.bind fun _ => hP.unbind (n + 1)

/-- The `finally` block. -/
theorem Closed.final (hP : Closed g k P) (c : Call) (hc : c.stmt = k) : Prog.Keeps P (c.final g) := by
  subst hc
  cases c with
  | queryRows k params => exact (hP.setCursor _).bind fun _ => (hP.unbindTo _).onlyIf
  | runUserRows k params => exact hP.setCursor _

theorem Closed.exec {c : Call} (hP : Closed g c.stmt P) : Prog.Keeps P (c.exec g) :=
  (hP.rowsOf c.params).tryFinally (hP.final c rfl)

end

/-- Nothing but the note of a failed `malloc` and the cursors of the other statements matters to `P`. -/
def Stable (k : Nat) (P : State → Prop) : Prop :=
  ∀ s s', P s → (s.heap.exhausted = true → s'.heap.exhausted = true) →
    (∀ k', k' ≠ k → s'.cursor k' = s.cursor k') → P s'

section
variable {P : State → Prop}

theorem Stable.modify {f : State → State} (hP : Stable k P)
    (hheap : ∀ s, s.heap.exhausted = true → (f s).heap.exhausted = true)
    (hcur : ∀ s k', k' ≠ k → (f s).cursor k' = s.cursor k') : Prog.Keeps P (Prog.modify f) :=
  fun s hs => hP s _ hs (hheap s) (hcur s)

theorem Stable.malloc (hP : Stable k P) (n : Int) : Prog.Keeps P (malloc g n) :=
  fun s hs => hP s _ hs (exhausted_malloc n) fun _ _ => rfl

theorem Stable.free (hP : Stable k P) (addr : Int) : Prog.Keeps P (free g addr) :=
  hP.modify (fun _ h => h) fun _ _ _ => rfl

theorem Stable.setCell (hP : Stable k P) (i : Nat) (c : Cell) : Prog.Keeps P (setCell k i c) :=
  hP.modify (fun _ h => h) fun _ _ _ => rfl

theorem Stable.onMem {α : Type} {p : Prog Memory α} (hP : Stable k P) : Prog.Keeps P (onMem p) := by
  intro s hs
  rw [BindRoundTrip.onMem, Prog.wp_within]
  unfold Prog.wp
  split <;> exact hP s _ hs id fun _ _ => rfl

theorem Stable.storeCopy {cell : Int → Nat → Cell} {p q : Int} {n : Nat} (hP : Stable k P) :
    Prog.Keeps P (storeCopy k i cell p n q) := by
  unfold BindRoundTrip.storeCopy
  split
  · exact Prog.keeps_pure _
  · exact hP.onMem.bind fun _ => (hP.setCell i _).bind fun _ => Prog.keeps_pure 0

theorem Stable.closed (hP : Stable k P) : Closed g k P where
  call := hP.modify (fun _ h => h) fun _ _ _ => rfl
  scratch n := by
    refine Prog.keeps_get.bind fun s => Prog.Keeps.bind (Prog.Keeps.onlyIf ?_) fun _ => Prog.keeps_get.bind fun _ =>
      Prog.keeps_pure _
    refine (hP.free _).onlyIf.bind fun _ => Prog.Keeps.bind ?_ fun _ => (hP.malloc _).bind fun _ => ?_
    · exact hP.modify (fun _ h => h) fun _ _ _ => rfl
    · exact hP.modify (fun _ h => h) fun _ _ _ => rfl
  onMem _ := hP.onMem
  unbind i := by
    refine Prog.keeps_get.bind fun s => ?_
    cases (s.cells k i).block with
    | some b => exact (hP.free _).bind fun _ => hP.setCell i .null
    | none => exact hP.setCell i .null
  setCell i c _ := hP.setCell i c
  putCopy i cell p n _ := by
    unfold putCopy
    split
    · exact Prog.keeps_pure 0
    · exact (hP.malloc n).bind fun q => hP.storeCopy
  setCursor c := hP.modify (fun _ h => h) fun s k' hne => Function.update_of_ne hne c s.cursor

end

/-- A `malloc` failed. -/
def Exhausted (s : State) : Prop := s.heap.exhausted = true

theorem exhausted_stable : Stable k Exhausted := fun _ _ hs hheap _ => hheap hs

theorem exhausted_closed : Closed g k Exhausted := exhausted_stable.closed

/-! ## Binding a parameter -/

/-- What the program gives, as long as there is memory. -/
def Ok {α : Type} (p : Op α) (Q : α → State → Prop) (s : State) : Prop :=
  p.wp (fun a s' => Exhausted s' ∨ Q a s') Exhausted s

section
variable {α β : Type} {p : Op α} {Q R : α → State → Prop}

theorem Ok.of_wp (h : p.wp Q (fun _ => False) s) : Ok p Q s :=
  Prog.wp_mono h (fun _ _ h => .inr h) fun _ h => h.elim

theorem Ok.bind {f : α → Op β} {Q : β → State → Prop} (hp : Ok p R s) (hx : ∀ a, Prog.Keeps Exhausted (f a))
    (hf : ∀ a s', R a s' → Ok (f a) Q s') : Ok (p >>= f) Q s := by
  refine Prog.wp_then hp fun a s' h => ?_
  rcases h with h | h
  · exact Prog.wp_mono (hx a s' h) (fun _ _ h => .inl h) fun _ h => h
  · exact hf a s' h

end

/-- The parameter is NULL; the rest, and what is in the scratch block, is as it was. -/
structure Cleared (g : Guest) (k i : Nat) (s s' : State) : Prop where
  sound : Sound s'
  cursor : s'.cursor = s.cursor
  bindBuf : s'.bindBuf = s.bindBuf
  bindCap : s'.bindCap = s.bindCap
  other : ∀ k' i', ¬(k' = k ∧ i' = i) → value g s' k' i' = value g s k' i'
  scratch : s.bindBuf ≠ 0 → Same ⟨s.bindBuf, s.bindCap⟩ s.heap s'.heap

theorem unbind_clears (hs : Sound s) : (unbind g k i).wp (fun _ s' => Cleared g k i s s') (fun _ => False) s := by
  simp only [unbind, Prog.wp_bind, Prog.wp_get]
  cases hb : (s.cells k i).block with
  | none =>
    refine ⟨hs.put rfl, rfl, rfl, rfl, fun k' i' hne => value_eq (put_other hne) fun _ _ _ _ => rfl, fun _ _ _ => rfl⟩
  | some b =>
    obtain ⟨hlive, hbuf⟩ := hs.copy k i b hb
    have hframe : Frame s.heap (s.heap.free g.toGuest b.addr) := (hs.heap.free b.addr).2
    have hother : ∀ k' i', ¬(k' = k ∧ i' = i) → ∀ d ∈ (s.cells k' i').block, d.addr ≠ b.addr :=
      fun k' i' hne d hd haddr => hne (hs.own k' i' k i d hd b hb haddr)
    refine ⟨hs.freed (.inr ⟨rfl, hbuf.symm⟩) fun k' i' d hd => ?_, rfl, rfl, rfl, fun k' i' hne => ?_, fun hne => ?_⟩
    · by_cases heq : k' = k ∧ i' = i
      · obtain ⟨rfl, rfl⟩ := heq
        rw [Function.update_self, Function.update_self] at hd
        exact absurd hd (Option.not_mem_none d)
      · have hd : d ∈ (s.cells k' i').block := put_other (c := .null) heq ▸ hd
        exact ⟨hd, hother k' i' heq d hd⟩
    · refine value_eq (put_other hne) fun d hd => hframe.same d (hs.copy k' i' d hd).1 ?_
      exact mem_live_free.mpr ⟨(hs.copy k' i' d hd).1, hother k' i' hne d hd⟩
    · exact hframe.same _ (hs.scratch hne) (mem_live_free.mpr ⟨hs.scratch hne, hbuf.symm⟩)

/-- The parameter is `v`, and the others are what they were. -/
structure Bound (g : Guest) (k i : Nat) (v : Value) (s s' : State) : Prop where
  sound : Sound s'
  cursor : s'.cursor = s.cursor
  here : value g s' k i = v
  other : ∀ k' i', ¬(k' = k ∧ i' = i) → value g s' k' i' = value g s k' i'

theorem Cleared.putCell {s₁ : State} {c : Cell} (hc : Cleared g k i s s₁) (hblock : c.block = none) :
    Ok (putCell k i c) (fun rc s' => rc = 0 ∧ Bound g k i (c.value g s₁.heap.mem) s s') s₁ := by
  refine .inr ⟨rfl, hc.sound.put hblock, hc.cursor, ?_, fun k' i' hne => ?_⟩
  · rw [value, put_self]
    rfl
  · exact (value_eq (put_other hne) fun _ _ _ _ => rfl).trans (hc.other k' i' hne)

/-- The copy of some bytes in the new block leaves the other blocks alone. -/
theorem Fresh.stored {b : Block} {h : Heap} {bytes : List UInt8} (hf : Fresh s b h) (hlen : bytes.length ≤ b.size) :
    Fresh s b { h with mem := store h.mem b.addr bytes } ∧
      (store h.mem b.addr bytes).bytes b.addr bytes.length = bytes := by
  have hb : b ∈ h.live := by rw [hf.live]; exact List.mem_cons_self
  have hend : b.addr + bytes.length ≤ h.mem.size := by
    have := (hf.sound.inside b hb).2.2
    omega
  have hst : Stored b.addr bytes 0 bytes.length h.mem (store h.mem b.addr bytes) := store_stored hend
  refine ⟨⟨hf.pos, hf.size, hf.live, hf.apart, ⟨fun c hc => ?_, hf.sound.apart⟩, ?_, fun c hc hc' a ha => ?_⟩,
    hst.bytes_eq hf.pos.le⟩
  · rw [hst.size_eq]
    exact hf.sound.inside c hc
  · rw [hst.size_eq]
    exact hf.frame.size
  · have hapart : ¬b.Has a := (hf.apart c hc).not_has ha
    have hpos : 0 ≤ a := by
      have := (hf.sound.inside c hc').1
      have := ha.1
      omega
    have hout : ¬(b.addr ≤ a ∧ a < b.addr + bytes.length) := fun hin => hapart ⟨hin.1, by omega⟩
    exact (hst.outside hpos hout).trans (hf.frame.same c hc hc' a ha)

theorem malloc_ok (hs : Sound s) (n : Int) :
    Ok (malloc g n) (fun q s' => ∃ h, s' = { s with heap := h } ∧ Fresh s ⟨q, max n 1⟩ h) s :=
  (malloc_fresh hs n).imp id fun hf => ⟨_, rfl, hf⟩

/-- SQLite takes the bytes from the scratch block. -/
theorem Cleared.putCopy {s₁ : State} {cell : Int → Nat → Cell} {bytes : List UInt8} {v : Value}
    (hc : Cleared g k i s s₁) (hcell : Copies cell) (hbuf : s.bindBuf ≠ 0) (hcap : bytes.length ≤ s.bindCap)
    (hbytes : s.heap.mem.bytes s.bindBuf bytes.length = bytes)
    (hv : ∀ q m, m.bytes q bytes.length = bytes → (cell q bytes.length).value g m = v) :
    Ok (putCopy g k i cell s.bindBuf bytes.length) (fun rc s' => rc = 0 ∧ Bound g k i v s s') s₁ := by
  have hlive : ⟨s.bindBuf, s.bindCap⟩ ∈ s₁.heap.live := by
    rw [← hc.bindBuf, ← hc.bindCap]
    exact hc.sound.scratch (by rw [hc.bindBuf]; exact hbuf)
  rw [BindRoundTrip.putCopy, if_neg hbuf]
  refine (malloc_ok hc.sound bytes.length).bind (fun _ => exhausted_stable.storeCopy) fun q s₂ h => ?_
  obtain ⟨h, rfl, hf⟩ := h
  -- the scratch block still has the bytes
  have hkept : h.mem.bytes s.bindBuf bytes.length = bytes := by
    have hlive' : ⟨s.bindBuf, s.bindCap⟩ ∈ h.live := by rw [hf.live]; exact List.mem_cons_of_mem _ hlive
    have hcleared : s₁.heap.mem.bytes s.bindBuf bytes.length = _ := (hc.scratch hbuf).bytes_eq hcap
    exact ((hf.frame.same _ hlive hlive').bytes_eq hcap).trans (hcleared.trans hbytes)
  have hlen : (bytes.length : Int) ≤ Block.size ⟨q, max bytes.length 1⟩ := le_max_left _ _
  obtain ⟨hf', hstored⟩ := hf.stored hlen
  have hrun : storeCopy k i cell s.bindBuf bytes.length q { s₁ with heap := h } = (some 0,
      State.put { s₁ with heap := { h with mem := store h.mem q bytes } } k i (cell q bytes.length)) := by
    rw [storeCopy, if_neg hf.pos.ne']
    show (some (0 : Int), State.put { s₁ with heap := { h with
      mem := store h.mem q (h.mem.bytes s.bindBuf bytes.length) } } k i (cell q bytes.length)) = _
    rw [hkept]
  unfold Ok Prog.wp
  rw [hrun]
  refine .inr ⟨rfl, hf'.copy hc.sound (hcell q _), hc.cursor, ?_, fun k' i' hne => ?_⟩
  · rw [value, put_self]
    exact hv q _ hstored
  · refine Eq.trans (value_eq (s := s₁) (put_other hne) fun d hd => ?_) (hc.other k' i' hne)
    have hd := (hc.sound.copy k' i' d hd).1
    exact hf'.frame.same d hd (by rw [hf'.live]; exact List.mem_cons_of_mem _ hd)

theorem sqlite3Bind_binds {put : Op Int} {v : Value} (hs : Sound s) (hi : 0 < i) (hcount : i ≤ g.count k)
    (hcur : s.cursor k = .reset)
    (hput : ∀ s₁, Cleared g k i s s₁ → Ok put (fun rc s' => rc = 0 ∧ Bound g k i v s s') s₁) :
    Ok (sqlite3Bind g k i put) (fun rc s' => rc = 0 ∧ Bound g k i v s s') s := by
  have hrange : ¬(i = 0 ∨ g.count k < i) := by omega
  have hreset : ¬s.cursor k ≠ .reset := not_not.mpr hcur
  simp only [Ok, sqlite3Bind, Prog.wp_bind, Prog.wp_get, if_neg hrange, if_neg hreset]
  exact Prog.wp_mono (unbind_clears hs) (fun _ s₁ h => hput s₁ h) fun _ h => h.elim

/-! ## The scratch block -/

theorem Sound.grown {cap : Int} (hs : Sound s) (hcap : 0 < cap) :
    (s.heap.malloc g.toGuest cap).2.exhausted = true ∨
      0 < (s.heap.malloc g.toGuest cap).1 ∧ Still g s { s with
        heap := (s.heap.malloc g.toGuest cap).2, bindBuf := (s.heap.malloc g.toGuest cap).1, bindCap := cap } := by
  refine (malloc_fresh hs cap).imp id fun hf => ⟨hf.pos, ?_⟩
  have hmax : max cap 1 = cap := max_eq_left hcap
  rw [hmax] at hf
  refine ⟨hf.scratch hs, rfl, rfl, fun k i => value_eq rfl fun b hb => ?_⟩
  have hb := (hs.copy k i b hb).1
  exact hf.frame.same b hb (by rw [hf.live]; exact List.mem_cons_of_mem _ hb)

theorem Sound.dropped (hs : Sound s) :
    Still g s { s with heap := s.heap.free g.toGuest s.bindBuf, bindBuf := 0 } := by
  have hfreed := hs.freed (g := g) (.inl rfl) fun k i b hb => ⟨hb, (hs.copy k i b hb).2⟩
  refine ⟨hfreed, rfl, rfl, fun k i => value_eq rfl fun b hb => ?_⟩
  have hb := hs.copy k i b hb
  exact (hs.heap.free s.bindBuf).2.same b hb.1 (mem_live_free.mpr hb)

/-- A block with room for `n` bytes. -/
structure Roomy (g : Guest) (n : Int) (s : State) (p : Int) (s' : State) : Prop extends Still g s s' where
  here : p = s'.bindBuf
  pos : s'.bindBuf ≠ 0
  room : n ≤ s'.bindCap

theorem scratch_roomy (hs : Sound s) (n : Int) : Ok (scratch g n) (Roomy g n s) s := by
  simp only [Ok, scratch, Prog.wp_bind, Prog.wp_get, Prog.wp_onlyIf]
  have hcap : 0 < max n (max (i32 (s.bindCap * 2)) SQL_BUF) := by simp only [SQL_BUF]; omega
  have hn : n ≤ max n (max (i32 (s.bindCap * 2)) SQL_BUF) := le_max_left ..
  generalize max n (max (i32 (s.bindCap * 2)) SQL_BUF) = cap at hcap hn
  by_cases hgrow : s.bindBuf = 0 ∨ s.bindCap < n
  · rw [if_pos hgrow]
    by_cases hbuf : s.bindBuf = 0
    · rw [if_neg (not_not.mpr hbuf)]
      refine (hs.grown hcap).imp id fun h => ?_
      exact ⟨h.2, rfl, h.1.ne', hn⟩
    · rw [if_pos hbuf]
      have hdrop : Still g s { s with heap := s.heap.free g.toGuest s.bindBuf, bindBuf := 0 } := hs.dropped
      refine (hdrop.sound.grown hcap).imp id fun h => ?_
      exact ⟨hdrop.trans h.2, rfl, h.1.ne', hn⟩
  · rw [if_neg hgrow]
    exact .inr ⟨Still.refl hs, rfl, by omega, by omega⟩

/-- A write into the scratch block leaves every copy alone. -/
theorem write_still {b : List UInt8} (hs : Sound s) (hbuf : s.bindBuf ≠ 0) (hroom : b.length ≤ s.bindCap) :
    (onMem (write s.bindBuf b)).wp (fun _ s' => Still g s s' ∧ s'.bindBuf = s.bindBuf ∧ s'.bindCap = s.bindCap ∧
      s'.heap.mem.bytes s.bindBuf b.length = b) (fun _ => False) s := by
  have hlive := hs.scratch hbuf
  obtain ⟨hpos, -, hend⟩ := hs.heap.inside _ hlive
  obtain ⟨m', hwrite, hst⟩ : ∃ m', write s.bindBuf b s.heap.mem = (some (), m') ∧
      Stored s.bindBuf b 0 b.length s.heap.mem m' := write_stores hpos.le (by simp only at hend; omega)
  have hsame : ∀ c ∈ s.heap.live, c.addr ≠ s.bindBuf → Same c s.heap { s.heap with mem := m' } := by
    intro c hc hne a ha
    have hapart : ¬Block.Has ⟨s.bindBuf, s.bindCap⟩ a := (hs.heap.apart_of_ne hlive hc hne.symm).not_has ha
    have hlo : 0 ≤ a := by
      have := (hs.heap.inside c hc).1
      have := ha.1
      omega
    exact hst.outside hlo fun hin => hapart ⟨hin.1, by simp only; omega⟩
  have hheap : Heap.Sound { s.heap with mem := m' } :=
    ⟨fun c hc => by rw [hst.size_eq]; exact hs.heap.inside c hc, hs.heap.apart⟩
  rw [onMem, Prog.wp_within]
  unfold Prog.wp
  rw [hwrite]
  refine ⟨⟨hs.of_heap hheap rfl, rfl, rfl, fun k i => value_eq rfl fun c hc => ?_⟩, rfl, rfl, hst.bytes_eq hpos.le⟩
  exact hsame c (hs.copy k i c hc).1 (hs.copy k i c hc).2

/-! ## The round trip -/

theorem bindBytes_binds {cell : Int → Nat → Cell} {b : List UInt8} {v : Value} (hs : Sound s) (hi : 0 < i)
    (hcount : i ≤ g.count k) (hcur : s.cursor k = .reset) (hcell : Copies cell)
    (hv : ∀ q m, m.bytes q b.length = b → (cell q b.length).value g m = v) :
    Ok (do
      let p ← scratch g b.length
      onMem (write p b)
      sqlite3Bind g k i (putCopy g k i cell p b.length)) (fun rc s' => rc = 0 ∧ Bound g k i v s s') s := by
  have hx : Closed g k Exhausted := exhausted_closed
  refine (scratch_roomy hs b.length).bind (fun p => ?_) fun p s₁ h₁ => ?_
  · exact (exhausted_stable (k := k)).onMem.bind fun _ => hx.bind (hx.putCopy i cell p _ hcell)
  · rw [h₁.here]
    refine (Ok.of_wp (write_still (g := g) h₁.sound h₁.pos h₁.room)).bind (fun _ => hx.bind (hx.putCopy _ _ _ _ hcell))
      fun _ s₂ h₂ => ?_
    obtain ⟨hstill, hbuf, hcap, hbytes⟩ := h₂
    have hall := h₁.toStill.trans hstill
    rw [← hbuf] at hbytes ⊢
    have hbind := sqlite3Bind_binds (v := v) hstill.sound hi hcount (by rw [hall.cursor]; exact hcur) fun s₃ h₃ =>
      h₃.putCopy hcell (by rw [hbuf]; exact h₁.pos) (by rw [hcap]; exact h₁.room) hbytes hv
    refine Prog.wp_mono hbind (fun rc s₃ h₃ => h₃.imp id fun ⟨hrc, h⟩ => ?_) fun _ h => h
    exact ⟨hrc, h.sound, h.cursor.trans hall.cursor, h.here, fun k' i' hne =>
      (h.other k' i' hne).trans (hall.value k' i')⟩

/-- What a parameter comes back as: an `Int` and a `Boolean` as a `Long`, the
others as they are. A floating-point number is no matter of this module. -/
def canonical : Param → Option Value
  | .null => some .null
  | .long n | .int n => some (.long n)
  | .boolean b => some (.long (if b then 1 else 0))
  | .string s => some (.text s)
  | .bytes b => some (.blob b)
  | .double _ | .float _ | .other => none

theorem bindOne_binds {p : Param} {v : Value} (hs : Sound s) (hi : 0 < i) (hcount : i ≤ g.count k)
    (hcur : s.cursor k = .reset) (hv : canonical p = some v) :
    Ok (bindOne g k i p) (fun rc s' => rc = 0 ∧ Bound g k i v s s') s := by
  cases p with
  | null =>
    cases hv
    exact sqlite3Bind_binds hs hi hcount hcur fun s₁ h₁ => h₁.putCell rfl
  | long n =>
    cases hv
    exact sqlite3Bind_binds hs hi hcount hcur fun s₁ h₁ => h₁.putCell rfl
  | int n =>
    cases hv
    exact sqlite3Bind_binds hs hi hcount hcur fun s₁ h₁ => h₁.putCell rfl
  | boolean b =>
    cases hv
    exact sqlite3Bind_binds hs hi hcount hcur fun s₁ h₁ => h₁.putCell rfl
  | string t =>
    cases hv
    refine bindBytes_binds hs hi hcount hcur (fun _ _ => rfl) fun q m hm => ?_
    simp only [Cell.value, hm, stringOf_toByteArray]
  | bytes b =>
    cases hv
    refine bindBytes_binds hs hi hcount hcur (fun _ _ => rfl) fun q m hm => ?_
    simp only [Cell.value, hm]
  | double x => cases hv
  | float x => cases hv
  | other => cases hv

/-- The parameters from the `i`-th on are bound, and those before it are left alone. -/
theorem bindFrom_binds {params : List Param} {values : List Value} (hs : Sound s) (hi : 0 < i)
    (hcount : i + params.length ≤ g.count k + 1) (hcur : s.cursor k = .reset)
    (hvalues : List.Forall₂ (fun p v => canonical p = some v) params values) :
    Ok (bindFrom g k i params) (fun _ s' => Sound s' ∧ s'.cursor = s.cursor ∧
      (∀ j < i, value g s' k j = value g s k j) ∧
      ∀ j (hj : j < values.length), value g s' k (i + j) = values[j]) s := by
  induction hvalues generalizing i s with
  | nil => exact .inr ⟨hs, rfl, fun _ _ => rfl, fun j hj => absurd hj (Nat.not_lt_zero j)⟩
  | @cons p v ps vs hv hvs ih =>
    have hx : Closed g k Exhausted := exhausted_closed
    rw [List.length_cons] at hcount
    refine (bindOne_binds hs hi (by omega) hcur hv).bind
      (fun _ => (Prog.keeps_throwIf _).bind fun _ => hx.bindFrom ps) fun rc s₁ h₁ => ?_
    obtain ⟨rfl, h₁⟩ := h₁
    refine Prog.wp_mono (ih (i := i + 1) h₁.sound (by omega) (by omega) (by rw [h₁.cursor]; exact hcur))
      (fun _ s₂ h₂ => h₂.imp id fun ⟨hs₂, hcur₂, hbefore, hthese⟩ => ?_) fun _ h => h
    refine ⟨hs₂, hcur₂.trans h₁.cursor, fun j hj => ?_, fun j hj => ?_⟩
    · exact (hbefore j (by omega)).trans (h₁.other k j (by omega))
    · cases j with
      | zero => exact (hbefore i (by omega)).trans h₁.here
      | succ j =>
        rw [List.getElem_cons_succ, ← hthese j (by simpa using hj)]
        congr 1
        omega

/-! ## Behind any calls -/

/-- What a session is in between two operations, as long as there is memory. -/
def Fit (s : State) : Prop := Exhausted s ∨ Sound s

theorem keeps_fit {α : Type} {p : Op α} (hx : Prog.Keeps Exhausted p)
    (hp : ∀ s, Sound s → p.wp (fun _ => Fit) Fit s) : Prog.Keeps Fit p := by
  intro s hs
  rcases hs with hs | hs
  · exact Prog.wp_mono (hx s hs) (fun _ _ h => .inl h) fun _ h => .inl h
  · exact hp s hs

theorem Ok.fit {α : Type} {p : Op α} {Q : α → State → Prop} (h : Ok p Q s) (hQ : ∀ a s', Q a s' → Sound s') :
    p.wp (fun _ => Fit) Fit s :=
  Prog.wp_mono h (fun a s' h => h.imp id (hQ a s')) fun _ h => .inl h

theorem fit_closed : Closed g k Fit where
  call := keeps_fit (fun _ h => h) fun s hs => .inr (hs.of_heap hs.heap.ran rfl)
  scratch n := keeps_fit ((exhausted_closed (k := k)).scratch n) fun s hs =>
    (scratch_roomy hs n).fit fun _ _ h => h.sound
  onMem hp := keeps_fit (exhausted_stable (k := k)).onMem fun s hs => by
    rw [onMem, Prog.wp_within]
    have hkept : ∀ m : Memory, m.size = s.heap.mem.size → Fit { s with heap := { s.heap with mem := m } } :=
      fun m hm => .inr (hs.of_heap ⟨fun b hb => by rw [hm]; exact hs.heap.inside b hb, hs.heap.apart⟩ rfl)
    exact Prog.wp_mono (hp _ _ rfl) (fun _ m hm => hkept m hm) fun m hm => hkept m hm
  unbind i := keeps_fit (exhausted_closed.unbind i) fun s hs =>
    (Ok.of_wp (unbind_clears hs)).fit fun _ _ h => h.sound
  setCell i c hc := keeps_fit (fun _ h => h) fun s hs => .inr (hs.put hc)
  putCopy i cell p n hcell := keeps_fit (exhausted_closed.putCopy i cell p n hcell) fun s hs => by
    unfold putCopy
    split
    · exact .inr hs
    · refine ((malloc_ok hs n).bind (Q := fun _ => Sound) (fun _ => exhausted_stable.storeCopy) fun q s₁ h => ?_).fit
        fun _ _ h => h
      obtain ⟨h, rfl, hf⟩ := h
      have hlen : ((h.mem.bytes p n).length : Int) ≤ Block.size ⟨q, max n 1⟩ := by
        rw [bytes_length]
        exact le_max_left _ _
      unfold storeCopy
      split
      · next hq => exact absurd hq hf.pos.ne'
      · exact .inr ((hf.stored hlen).1.copy hs (hcell q n))
  setCursor c := keeps_fit (fun _ h => h) fun s hs => .inr (hs.cursor _)

/-- The other statements are at their beginning. -/
def Others (k : Nat) (s : State) : Prop := ∀ k', k' ≠ k → s.cursor k' = .reset

theorem others_stable : Stable k (Others k) := fun _ _ hs _ hcur k' hne => (hcur k' hne).trans (hs k' hne)

/-- Every statement is. -/
def Rested (s : State) : Prop := ∀ k, s.cursor k = .reset

theorem unbind_cursor : (unbind g k i).wp (fun _ s' => s'.cursor = s.cursor) (fun _ => False) s := by
  simp only [unbind, Prog.wp_bind, Prog.wp_get]
  cases (s.cells k i).block with
  | some b => exact rfl
  | none => exact rfl

theorem unbindTo_cursor (n : Nat) :
    (unbindTo g k n).wp (fun _ s' => s'.cursor = s.cursor) (fun _ => False) s := by
  induction n with
  | zero => exact rfl
  | succ n ih =>
    refine Prog.wp_then ih fun _ s₁ h₁ => Prog.wp_mono unbind_cursor (fun _ s₂ h₂ => ?_) fun _ h => h
    exact h₂.trans h₁

/-- The `finally` block returns, and resets the statement. -/
theorem final_cursor (c : Call) : (c.final g).wp
    (fun _ s' => s'.cursor = Function.update s.cursor c.stmt .reset) (fun _ => False) s := by
  cases c with
  | queryRows k params =>
    simp only [Call.final, sqlite3Reset, setCursor, Prog.wp_bind, Prog.wp_modify, Prog.wp_onlyIf]
    split
    · exact unbindTo_cursor _
    · rfl
  | runUserRows k params => exact rfl

theorem exec_rested (c : Call) : Prog.Keeps Rested (c.exec g) := by
  have hothers : Closed g c.stmt (Others c.stmt) := others_stable.closed
  have hfinal : ∀ s, Others c.stmt s → (c.final g).wp (fun _ => Rested) Rested s := by
    intro s hs
    refine Prog.wp_mono (final_cursor c) (fun _ s' h k => ?_) fun _ h => h.elim
    rw [h]
    by_cases hk : k = c.stmt
    · subst hk
      exact Function.update_self ..
    · exact (Function.update_of_ne hk _ _).trans (hs k hk)
  intro s hs
  have hrows := hothers.rowsOf c.params s fun k _ => hs k
  exact Prog.wp_tryFinally.mpr (Prog.wp_mono hrows (fun _ s' h => hfinal s' h) fun s' h => hfinal s' h)

theorem after_fit (calls : List Call) : Fit (after g calls) ∧ Rested (after g calls) := by
  have hrun : ∀ (calls : List Call) s, Fit s ∧ Rested s →
      Fit (calls.foldl (fun s c => (c.exec g s).2) s) ∧ Rested (calls.foldl (fun s c => (c.exec g s).2) s) := by
    intro calls
    induction calls with
    | nil => exact fun _ h => h
    | cons c cs ih => exact fun s h => ih _ ⟨fit_closed.exec.state h.1, (exec_rested c).state h.2⟩
  exact hrun calls _ ⟨.inr start_sound, fun _ => rfl⟩

theorem bindFrom_append {before later : List Param} :
    bindFrom g k i (before ++ later) = bindFrom g k i before >>= fun _ => bindFrom g k (i + before.length) later := by
  induction before generalizing i with
  | nil => rfl
  | cons p ps ih =>
    have hlen : i + 1 + ps.length = i + (p :: ps).length := by rw [List.length_cons]; omega
    simp only [List.cons_append, bindFrom, ih, hlen, Prog.bind_assoc]

theorem Ok.result {α : Type} {p : Op α} {Q : α → State → Prop} (h : Ok p Q s) (hx : ¬Exhausted (p s).2) :
    ∃ a, p s = (some a, (p s).2) ∧ Q a (p s).2 := by
  unfold Ok Prog.wp at h
  rcases hp : p s with ⟨_ | a, s'⟩ <;> rw [hp] at h hx
  · exact absurd h hx
  · exact ⟨a, rfl, h.resolve_left hx⟩

/-- A failed `malloc` of the binds is noted behind the call. -/
theorem exhausted_exec {c : Call} {n : Nat} (hx : Exhausted (bindAll g c.stmt (c.params.take n) s).2) :
    Exhausted (c.exec g s).2 := by
  have hclosed : Closed g c.stmt Exhausted := exhausted_closed
  have hbind : Exhausted (bindAll g c.stmt c.params s).2 := by
    rw [← List.take_append_drop n c.params, bindAll, bindFrom_append]
    exact Prog.state_bind hx fun _ => hclosed.bindFrom _
  exact Prog.state_tryFinally (Prog.state_bind hbind fun _ => hclosed.decodeRows) (hclosed.final c rfl)

/-- The first `n` parameters are there behind their binds. -/
theorem bindAll_holds {c : Call} {values : List Value} (hs : Sound s) (hrested : Rested s)
    (hcount : g.count c.stmt = c.params.length)
    (hvalues : List.Forall₂ (fun p v => canonical p = some v) c.params values) (hleft : ¬Exhausted (c.exec g s).2)
    (n : Nat) :
    ∃ s', bindAll g c.stmt (c.params.take n) s = (some (), s') ∧ Sound s' ∧ s'.cursor = s.cursor ∧
      ∀ j (hj : j < values.length), j < n → value g s' c.stmt (j + 1) = values[j] := by
  have hlen : 1 + (c.params.take n).length ≤ g.count c.stmt + 1 := by
    rw [hcount, List.length_take]
    omega
  have hok := bindFrom_binds hs one_pos hlen (hrested c.stmt) (List.forall₂_take n hvalues)
  obtain ⟨_, hrun, hs', hcur, -, hthese⟩ := hok.result fun hx => hleft (exhausted_exec hx)
  refine ⟨_, hrun, hs', hcur, fun j hj hjn => ?_⟩
  have htake : j < (values.take n).length := by rw [List.length_take]; omega
  rw [Nat.add_comm j 1]
  exact (hthese j htake).trans List.getElem_take

/-- **What is bound comes back**: behind any calls before, a call that finds
memory for its blocks returns one row with the parameters' values in order; and
each of them is there as soon as it is bound, whatever is bound behind it. -/
theorem bind_decode (g : Guest) (calls : List Call) (c : Call) {values : List Value}
    (hcount : g.count c.stmt = c.params.length)
    (hvalues : List.Forall₂ (fun p v => canonical p = some v) c.params values)
    (hmalloc : (c.exec g (after g calls)).2.heap.exhausted = false) :
    (c.exec g (after g calls)).1 = some (some [⟨columns g c.stmt, values⟩]) ∧
      ∀ n j (hj : j < values.length), j < n →
        value g (bindAll g c.stmt (c.params.take n) (after g calls)).2 c.stmt (j + 1) = values[j] := by
  obtain ⟨hfit, hrested⟩ := after_fit (g := g) calls
  generalize after g calls = s at hfit hrested hmalloc
  have hclosed : Closed g c.stmt Exhausted := exhausted_closed
  have hleft : ¬Exhausted (c.exec g s).2 := by rw [Exhausted, hmalloc]; exact Bool.false_ne_true
  have hs : Sound s := hfit.resolve_left fun h => hleft (hclosed.exec.state h)
  have hlen : c.params.length = values.length := hvalues.length_eq
  have hbound := bindAll_holds hs hrested hcount hvalues hleft
  refine ⟨?_, fun n j hj hjn => ?_⟩
  · obtain ⟨s₁, hrun, hs₁, hcur, hthese⟩ := hbound c.params.length
    rw [List.take_length] at hrun
    have hrow : (List.range (g.count c.stmt)).map (fun i => value g s₁ c.stmt (i + 1)) = values := by
      refine List.ext_getElem (by rw [List.length_map, List.length_range, hcount, hlen]) fun j _ hj => ?_
      rw [List.getElem_map, List.getElem_range]
      exact hthese j hj (by omega)
    have hrows : (rowsOf g c.stmt c.params).wp (fun r _ => r = some [⟨columns g c.stmt, values⟩])
        (fun _ => False) s := by
      refine Prog.wp_bind.mpr ?_
      unfold Prog.wp
      rw [hrun, ← hrow]
      exact decodeRows_returns hs₁ (by rw [hcur]; exact hrested c.stmt)
    refine Prog.wp_result (Prog.wp_tryFinally.mpr (Prog.wp_mono hrows (fun r s₂ hr => ?_) fun _ h => h.elim))
    exact Prog.wp_mono (final_cursor c) (fun _ _ _ => hr) fun _ h => h
  · obtain ⟨s₁, hrun, -, -, hthese⟩ := hbound n
    rw [hrun]
    exact hthese j hj hjn

/-- One page, with the first block in front. -/
def roomy : Guest where
  alloc t := if t = 0 then 16 else 5000 + 50 * t
  grow _ := 0
  scribble t _ := UInt8.ofNat t
  memory := ⟨[fun _ => 0], by decide⟩
  count _ := 6
  columnName _ _ := "?"
  malformed _ := "\uFFFD"
  heapRows := 0

/-- A parameter of each kind. -/
def six : Call := .queryRows 3 [.string "", .bytes [], .string "a\x00b", .boolean true, .null, .int 7]

theorem bind_decode_six : (six.exec roomy (after roomy [six])).1 =
    some (some [⟨columns roomy 3, [.text "", .blob [], .text "a\x00b", .long 1, .null, .long 7]⟩]) := by
  have hvalues : List.Forall₂ (fun p v => canonical p = some v) six.params
      [.text "", .blob [], .text "a\x00b", .long 1, .null, .long 7] :=
    .cons rfl (.cons rfl (.cons rfl (.cons rfl (.cons rfl (.cons rfl .nil)))))
  exact (bind_decode roomy [six] six rfl hvalues (by decide +kernel)).1

end BindRoundTrip

end Sqlol

/-
What the result set is for: to deliver the rows of one execution, each once and in order, up
to the last one or to the limit.

`result_set_run_iff` says when it does: in exactly the runs whose calls are `Careful`. Those that
are not:
- a `next` behind a failed one, which begins the query again, and one to the row 2^31, where the
  counter wraps;
- a limit set below the row;
- an execution of a plain statement that `tryEnforceTransactionMode` refuses while rows of the
  last one wait (`Fresh`): the new pointer is there and `resultsWaiting` still stands;
- an execution of a prepared statement that throws while rows of the last one wait, and an
  `execute` that gives a row and whose generated keys fail;
- an `executeUpdate` of a prepared statement without columns while rows of the last execution
  wait, but for one whose error closes the pointer;
- a batch of a prepared statement that has rows open or waiting;
- the connection's `close` before the first `next` of an open result set, and a result set's
  `close` behind the connection's.
-/
import Sqlol.ResultSets

namespace Sqlol

namespace ResultSets

/-- The first rows of an execution, as they are noted. -/
def rowsOf (e n : Nat) : List (Option (Nat × Nat)) := (List.range n).map fun i => some (e, i + 1)

/-- The result set has gone to the first `n` rows of the execution `e`. -/
structure Delivered (s : Stmt) (e n : Nat) : Prop where
  delivered : s.delivered = rowsOf e n
  row : s.rs.row = n
  small : n < 2147483648
  past : s.rs.pastLastRow = true → s.endedAt = some (e, n)
  /-- SQLite's statement is at the last of them, and before the first `next` at the first. -/
  here : s.rs.pastLastRow = false → s.pointer = .open_ →
    s.cursor = .running e (max n 1) ∨ (0 < n ∧ s.cursor = .failed e n)
  begun : s.rs.pastLastRow = false → s.pointer = .closed → 0 < n

/-- The result set, the pointer and SQLite's statement agree with each other. -/
structure Holds (s : Stmt) : Prop where
  shut : s.pointer = .open_ → s.dbOpen = true
  bound : s.rs.open_ = true → s.pointer ≠ .null
  orphan : s.rs.open_ = true → s.pointer = .closed → s.dbOpen = false
  fetched : s.rs.open_ = true → s.resultsWaiting = false ∧ s.rs.colsMeta = true
  idle : s.rs.open_ = false → s.rs.row = 0 ∧ s.rs.pastLastRow = false
  /-- What waits is there. -/
  waiting : s.resultsWaiting = true → s.pointer = .open_ → ∃ e, s.cursor = .running e 1
  limited : 0 ≤ s.rs.maxRows ∧ (s.rs.maxRows ≠ 0 → s.rs.row ≤ s.rs.maxRows)
  rows : s.rs.open_ = true → s.rs.emptyResultSet = false → ∃ e n, Delivered s e n

namespace Stmt

/-- Rows are still to come, as far as the result set knows. -/
def active (s : Stmt) : Prop := s.rs.open_ = true ∧ s.rs.emptyResultSet = false ∧ s.rs.pastLastRow = false

/-- Closing the result set leaves the statement open. -/
def survives (s : Stmt) : Prop :=
  s.rs.closeStmt = false ∧ (s.rs.open_ = true → s.closeOnCompletion = true → s.closed = true)

instance (s : Stmt) : Decidable s.survives := inferInstanceAs (Decidable (_ ∧ _))

end Stmt

/-- The execution of a prepared statement throws and leaves it open. -/
def Weather.throws (w : Weather) : Prop :=
  w.enforced = false ∨ w.timeoutSet = false ∨ w.bound = false ∨ w.answer = .busy ∨ w.answer = .crash ∨
    (w.answer = .done ∧ w.settled = false)

/-- The statement is prepared anew, and what waited on the last one is still noted. -/
def Fresh (s : Stmt) (w : Weather) : Prop :=
  s.resultsWaiting = true → s.dbOpen = true → w.timeoutSet = true → w.prepared = true → w.enforced = true

/-- A call that keeps the result set right. -/
def Careful (s : Stmt) : Label → Prop
  | .execute w => match s.kind with
    | .plain => w.ext = none → Fresh s w
    | .prepared _ => s.pointer = .open_ → s.survives →
      (w.throws → s.resultsWaiting = false) ∧ (¬ w.throws → w.answer = .row → w.keys = true)
  | .executeQuery w => match s.kind with
    | .plain => Fresh s w
    | .prepared n => n ≠ 0 → s.pointer = .open_ → s.survives → w.throws → s.resultsWaiting = false
  | .executeQueryThen _ w => match s.kind with
    | .plain => Fresh s w
    | .prepared _ => True
  | .executeLargeUpdate w => match s.kind with
    | .plain => True
    | .prepared n => n = 0 → s.pointer = .open_ → s.survives → s.resultsWaiting = true →
      w.enforced = true ∧ w.timeoutSet = true ∧ w.bound = true ∧ w.answer = .error
  | .executeLargeBatch w rows => match s.kind with
    | .plain => True
    | .prepared _ => rows ≠ [] → w.enforced = true → w.timeoutSet = true → s.pointer = .open_ → w.bound = true →
      s.resultsWaiting = false ∧ ¬ s.active
  | .setLargeMaxRows max => max ≤ 0 ∨ s.rs.row ≤ max
  | .next a => s.active → s.rs.row ≠ 0 → (s.rs.maxRows ≠ 0 → s.rs.row ≠ s.rs.maxRows) → s.pointer = .open_ →
    a = .row ∨ a = .done → (∀ e n, s.cursor ≠ .failed e n) ∧ (a = .row → s.rs.row + 1 < 2147483648)
  | .closeResultSet => s.rs.open_ = true → s.pointer ≠ .closed
  | .closeDB => s.active → s.rs.row ≠ 0
  | .addBatch | .getResultSet _ | .getMoreResults | .closeOnCompletion | .close => True

/-! ## What the calls leave -/

namespace Stmt

variable (a : Answer) (s : Stmt)

/-- The result set's `close` is over. -/
def rsClosed : Stmt := match s.pointer with
  | .open_ =>
    if s.rs.open_ || s.rs.closeStmt then
      { s with
        rs := { s.rs.cleared with open_ := false, closeStmt := false }
        cursor := .reset
        pointer := if s.survives then .open_ else .closed
        closed := s.closed || !decide s.survives }
    else s.mapRs ResultSet.cleared
  | .closed => { s.mapRs ResultSet.cleared with closed := s.closed || (s.rs.open_ && s.closeOnCompletion) }
  | .null => s.mapRs ResultSet.cleared

/-- `internalClose` is over. -/
def quiet : Stmt := if s.pointer = .open_ then { s.rsClosed with pointer := .closed } else s

end Stmt

section
variable {s : Stmt} {w : Weather} {α : Type} {E : Stmt → Prop}

theorem wp_safeRun {p : Op α} {Q : α → Stmt → Prop} :
    (safeRun p).wp Q E s ↔ if s.pointer = .open_ then p.wp Q E s else E s := by
  rw [safeRun, Prog.wp_bind, Prog.wp_get]
  cases s.pointer <;> rfl

theorem wp_reset {Q : Unit → Stmt → Prop} :
    reset.wp Q E s ↔ if s.pointer = .open_ then Q () { s with cursor := .reset } else E s := by
  rw [reset, wp_safeRun]
  rfl

theorem wp_step_ {a : Answer} {Q : Unit → Stmt → Prop} :
    (step_ a).wp Q E s ↔ if a = .crash then E (s.stepped a) else Q () (s.stepped a) := by
  rw [step_, Prog.wp_bind, Prog.wp_modify, Prog.wp_throwIf]
  simp only [decide_eq_true_iff]

/-- Three calls deep is all there is. -/
theorem rsCloseIn_eq (n : Nat) (hshut : s.pointer = .open_ → s.dbOpen = true) :
    rsCloseIn (n + 3) s = (if s.pointer = .null then none else some (), s.rsClosed) := by
  obtain ⟨kind, dbOpen, pointer, cursor, executions, waiting, exhausted, closed, completion, rs, delivered,
    endedAt⟩ := s
  obtain ⟨open_, empty, past, closeStmt, row, maxRows, cols⟩ := rs
  cases pointer with
  | null => cases open_ <;> rfl
  | closed => cases open_ <;> cases completion <;> cases closed <;> rfl
  | open_ =>
    obtain rfl : dbOpen = true := hshut rfl
    cases open_ <;> cases closeStmt <;> cases completion <;> cases closed <;> rfl

theorem wp_rsClose {Q : Unit → Stmt → Prop} (hshut : s.pointer = .open_ → s.dbOpen = true) :
    rsClose.wp Q E s ↔ if s.pointer = .null then E s.rsClosed else Q () s.rsClosed := by
  rw [rsClose, Prog.wp, rsCloseIn_eq 0 hshut]
  cases s.pointer <;> rfl

theorem wp_internalClose {Q : Unit → Stmt → Prop} (hshut : s.pointer = .open_ → s.dbOpen = true) :
    internalClose.wp Q E s ↔ Q () s.quiet := by
  rw [internalClose, internalCloseWith, Prog.wp_bind, Prog.wp_get, Stmt.quiet]
  cases hp : s.pointer with
  | null | closed => rfl
  | open_ =>
    have hopen : s.rsClosed.pointer ≠ .null := by
      rw [Stmt.rsClosed, hp]
      simp only [Stmt.mapRs]
      split <;> simp only [hp, ne_eq, reduceCtorEq, not_false_eq_true]
      split <;> simp
    rw [Prog.wp_bind, Prog.wp_get, Prog.wp_bind, Prog.wp_throwIf, hshut hp, Prog.wp_bind, wp_rsClose hshut, hp]
    show closePointer.wp Q E s.rsClosed ↔ _
    rw [closePointer, Prog.wp_bind, Prog.wp_get]
    cases hc : s.rsClosed.pointer with
    | null => exact absurd hc hopen
    | open_ | closed => rfl

theorem onlyIf_closePointer (hp : s.pointer ≠ .open_) :
    (Prog.onlyIf (s.pointer ≠ .null) closePointer) s = (some (), s) := by
  obtain ⟨kind, dbOpen, pointer, cursor, executions, waiting, exhausted, closed, completion, rs, delivered,
    endedAt⟩ := s
  cases pointer with
  | null | closed => rfl
  | open_ => exact absurd rfl hp

theorem wp_dbPrepare {Q : Unit → Stmt → Prop} (hp : s.pointer ≠ .open_) : (dbPrepare w).wp Q E s ↔
    if s.dbOpen = true ∧ w.prepared = true then Q () { s with pointer := .open_, cursor := .reset } else E s := by
  rw [dbPrepare, Prog.wp_bind, Prog.wp_get, Prog.wp_bind, Prog.wp, onlyIf_closePointer hp]
  simp only [Prog.wp_bind, Prog.wp_throwIf, Prog.wp_modify]
  cases s.dbOpen <;> cases w.prepared <;> simp

/-- One way to return with a row, one to return without; an error closes the pointer. -/
theorem wp_dbExecute {Q : Bool → Stmt → Prop} (hp : s.pointer = .open_) : (dbExecute w).wp Q E s ↔
    if w.bound = false then E s
    else match w.answer with
      | .row => Q true (s.stepped .row)
      | .done => if w.settled = true then Q false { s.stepped .done with cursor := .reset }
        else E { s.stepped .done with cursor := .reset }
      | .busy => E (s.stepped .busy)
      | .error => E { s.stepped .error with pointer := .closed }
      | .crash => E (s.stepped .crash) := by
  rw [dbExecute, Prog.wp_bind, wp_safeRun, if_pos hp, Prog.wp_bind, Prog.wp_throwIf]
  cases w.bound with
  | false => rfl
  | true =>
    cases ha : w.answer <;> simp [Prog.wp_bind, wp_step_, wp_reset, Prog.wp_throwIf, Stmt.stepped, hp]
    simp [closePointer, Prog.wp_bind, Prog.wp_get]

theorem wp_columnCount {Q : Nat → Stmt → Prop} (hp : s.pointer = .open_) : (columnCount w).wp Q E s ↔
    match w.columns with
    | none => E s
    | some n => Q n s := by
  rw [columnCount, wp_safeRun, if_pos hp]
  cases w.columns <;> rfl

/-! ## Closed result sets -/

/-- The result set is closed. -/
structure Rests (s : Stmt) : Prop where
  open_ : s.rs.open_ = false
  row : s.rs.row = 0
  past : s.rs.pastLastRow = false
  limit : 0 ≤ s.rs.maxRows

theorem Rests.congr {s' : Stmt} (h : Rests s) (hrs : s'.rs = s.rs) : Rests s' :=
  ⟨hrs ▸ h.open_, hrs ▸ h.row, hrs ▸ h.past, hrs ▸ h.limit⟩

/-- Then it is only for what waits to be there. -/
theorem Rests.holds_iff (h : Rests s) : Holds s ↔
    (s.pointer = .open_ → s.dbOpen = true) ∧
      (s.resultsWaiting = true → s.pointer = .open_ → ∃ e, s.cursor = .running e 1) := by
  refine ⟨fun hs => ⟨hs.shut, hs.waiting⟩, fun ⟨hshut, hwaiting⟩ => ⟨hshut, ?_, ?_, ?_, fun _ => ⟨h.row, h.past⟩,
    hwaiting, ⟨h.limit, fun _ => by rw [h.row]; exact h.limit⟩, ?_⟩⟩
  all_goals
    intro hopen
    rw [h.open_] at hopen
    cases hopen

theorem Holds.rests (h : Holds s) (hopen : s.rs.open_ = false) : Rests s :=
  ⟨hopen, (h.idle hopen).1, (h.idle hopen).2, h.limited.1⟩

theorem Holds.rests_rsClosed (h : Holds s) (hp : s.pointer = .open_) : Rests s.rsClosed := by
  have hlimit := h.limited.1
  rw [Stmt.rsClosed, hp]
  simp only [Stmt.mapRs]
  split
  · exact ⟨rfl, rfl, rfl, hlimit⟩
  · next hno =>
    rw [Bool.or_eq_true, not_or] at hno
    exact ⟨(Bool.not_eq_true _).mp hno.1, rfl, rfl, hlimit⟩

theorem wp_exec_refused {Q : Bool → Stmt → Prop} (hrs : s.rs.open_ = false) (he : w.enforced = false) :
    (exec w).wp Q E s ↔ E s := by
  rw [exec, Prog.wp_bind, Prog.wp_get, Prog.wp_bind, Prog.wp_throwIf, hrs, if_neg (by decide), Prog.wp_bind,
    Prog.wp_throwIf, he, if_pos (by decide)]

theorem exec_wp {Q : Bool → Stmt → Prop} (hrs : s.rs.open_ = false) (he : w.enforced = true)
    (h : (dbExecute w).wp
      (fun row s' => (columnCount w).wp (fun n => Q (n ≠ 0)) E { s' with resultsWaiting := row })
      (fun s' => closePointer.wp (fun _ => E) E { s' with resultsWaiting := false }) s) : (exec w).wp Q E s := by
  rw [exec, Prog.wp_bind, Prog.wp_get, Prog.wp_bind, Prog.wp_throwIf, hrs, if_neg (by decide), Prog.wp_bind,
    Prog.wp_throwIf, he, if_neg (by decide), Prog.wp_bind, Prog.wp_onThrow]
  refine Prog.wp_mono h (fun row s' hs => ?_) (fun s' hs => ?_)
  · rw [Prog.wp_bind, Prog.wp_modify, Prog.wp_bind]
    exact hs
  · rw [Prog.wp_bind, Prog.wp_modify]
    exact hs

theorem wp_withConnectionTimeout {p : Op α} {P : Stmt → Prop} :
    (withConnectionTimeout w p).wp (fun _ => P) P s ↔ if w.timeoutSet = false then P s else p.wp (fun _ => P) P s := by
  rw [withConnectionTimeout, Prog.wp_bind, Prog.wp_throwIf, Prog.wp_tryFinally]
  cases w.timeoutSet with
  | false => rfl
  | true => cases w.timeoutReset <;> rfl

/-- A prepared statement that was reset. -/
structure Ready (s : Stmt) : Prop extends Rests s where
  pointer : s.pointer = .open_
  cursor : s.cursor = .reset
  dbOpen : s.dbOpen = true

/-- Nothing may wait on it. -/
theorem Ready.holds_iff (h : Ready s) : Holds s ↔ s.resultsWaiting = false := by
  rw [h.toRests.holds_iff, h.pointer, h.cursor, h.dbOpen]
  simp

theorem Rests.holds_of_closed (h : Rests s) (hp : s.pointer = .closed) : Holds s :=
  h.holds_iff.mpr ⟨fun h' => absurd (hp.symm.trans h') (by decide), fun _ h' => absurd (hp.symm.trans h') (by decide)⟩

@[simp] theorem stepped_pointer (a : Answer) : (s.stepped a).pointer = s.pointer := rfl

@[simp] theorem stepped_rs (a : Answer) : (s.stepped a).rs = s.rs := rfl

@[simp] theorem stepped_dbOpen (a : Answer) : (s.stepped a).dbOpen = s.dbOpen := rfl

@[simp] theorem stepped_resultsWaiting (a : Answer) : (s.stepped a).resultsWaiting = s.resultsWaiting := rfl

theorem stepped_row (hc : s.cursor = .reset) : (s.stepped .row).cursor = .running s.executions 1 := by
  simp only [Stmt.stepped, Stmt.moved, Stmt.execution, hc]

/-- A first row is there, and waits. -/
theorem Ready.waits (h : Ready s) : Holds { s.stepped .row with resultsWaiting := true } := by
  have hrests : Rests { s.stepped .row with resultsWaiting := true } := h.toRests.congr rfl
  exact hrests.holds_iff.mpr ⟨fun _ => h.dbOpen, fun _ _ => ⟨s.executions, stepped_row h.cursor⟩⟩

theorem Rests.done (h : Rests s) (hdb : s.dbOpen = true) (a : Answer) (c : Cursor) :
    Holds { s.stepped a with cursor := c, resultsWaiting := false } := by
  have hrests : Rests { s.stepped a with cursor := c, resultsWaiting := false } := h.congr rfl
  exact hrests.holds_iff.mpr ⟨fun _ => hdb, fun hno => nomatch hno⟩

/-- Where `exec` goes with a statement that was just prepared. -/
theorem exec_spec (h : Ready s) (he : w.enforced = true) :
    (exec w).wp (fun _ s' => Holds s' ∧ Rests s') Holds s := by
  refine exec_wp h.open_ he ((wp_dbExecute h.pointer).mpr ?_)
  have hcolumns : ∀ s' : Stmt, s'.pointer = .open_ → Holds s' → Rests s' →
      (columnCount w).wp (fun _ s' => Holds s' ∧ Rests s') Holds s' := by
    intro s' hp hs hr
    rw [wp_columnCount hp]
    cases w.columns with
    | none => exact hs
    | some n => exact ⟨hs, hr⟩
  have hclose : ∀ s' : Stmt, s'.pointer ≠ .null → Rests s' → closePointer.wp (fun _ => Holds) Holds s' := by
    intro s' hp hr
    rw [closePointer, Prog.wp_bind, Prog.wp_get]
    split
    · next hnull => exact absurd hnull hp
    · exact Rests.holds_of_closed (hr.congr rfl) rfl
  have hrests : ∀ a, Rests (s.stepped a) := fun a => h.toRests.congr rfl
  split
  · exact hclose _ (by rw [h.pointer]; decide) (h.toRests.congr rfl)
  · split
    · exact hcolumns _ h.pointer h.waits ((hrests .row).congr rfl)
    · split
      · exact hcolumns _ h.pointer (h.done h.dbOpen .done .reset) ((hrests .done).congr rfl)
      · exact hclose _ (by rw [stepped_pointer, h.pointer]; decide) ((hrests .done).congr rfl)
    · exact hclose _ (by simp [h.pointer]) ((hrests .busy).congr rfl)
    · exact hclose _ nofun ((hrests .error).congr rfl)
    · exact hclose _ (by simp [h.pointer]) ((hrests .crash).congr rfl)

/-- The result set opens on what waits, or empty. -/
theorem Rests.opens (h : Rests s) (hs : Holds s) (hp : s.pointer = .open_) :
    Holds { s with
      rs := { s.rs with colsMeta := true, emptyResultSet := !s.resultsWaiting, open_ := true }
      resultsWaiting := false
      delivered := [] } := by
  refine ⟨hs.shut, fun _ => ?_, fun _ hc => ?_, fun _ => ⟨rfl, rfl⟩, nofun, nofun, ⟨h.limit, fun _ => ?_⟩,
    fun _ hfull => ?_⟩
  · show s.pointer ≠ .null
    rw [hp]
    decide
  · exact absurd (hp.symm.trans hc) (by decide)
  · show s.rs.row ≤ _
    rw [h.row]
    exact h.limit
  · obtain ⟨e, he⟩ := hs.waiting (by simpa using hfull) hp
    exact ⟨e, 0, rfl, h.row, by decide, fun hpast => absurd (h.past.symm.trans hpast) (by decide),
      fun _ _ => .inl he, fun _ hc => absurd (hp.symm.trans hc) (by decide)⟩

theorem getResultSet_keeps : Prog.Keeps Holds (getResultSet w) := by
  intro s h
  rw [getResultSet, wp_safeRun]
  split
  case isFalse => exact h
  case isTrue hp =>
    rw [Prog.wp_bind, Prog.wp_get]
    split
    · exact h
    · rw [Prog.wp_bind, Prog.wp_throwIf]
      split
      · exact h
      · next hopen =>
        rw [Prog.wp_bind, wp_columnCount hp]
        cases w.columns with
        | none => exact h
        | some n =>
          show Prog.wp (if n = 0 then _ else _) _ _ s
          split
          · exact h
          · rw [Prog.wp_bind, Prog.wp_throwIf]
            split
            · exact h
            · exact (h.rests ((Bool.not_eq_true _).mp hopen)).opens h hp

theorem quiet_pointer : s.quiet.pointer ≠ .open_ := by
  rw [Stmt.quiet]
  split
  · show Pointer.closed ≠ Pointer.open_
    decide
  · assumption

theorem rsClosed_dbOpen : s.rsClosed.dbOpen = s.dbOpen := by
  rw [Stmt.rsClosed]
  split
  · split <;> rfl
  · rfl
  · rfl

theorem rsClosed_resultsWaiting : s.rsClosed.resultsWaiting = s.resultsWaiting := by
  rw [Stmt.rsClosed]
  split
  · split <;> rfl
  · rfl
  · rfl

theorem quiet_dbOpen : s.quiet.dbOpen = s.dbOpen := by
  rw [Stmt.quiet]
  split
  · exact rsClosed_dbOpen
  · rfl

theorem quiet_resultsWaiting : s.quiet.resultsWaiting = s.resultsWaiting := by
  rw [Stmt.quiet]
  split
  · exact rsClosed_resultsWaiting
  · rfl

theorem Holds.quiet (h : Holds s) : Holds s.quiet := by
  rw [Stmt.quiet]
  split
  · next hp => exact Rests.holds_of_closed ((h.rests_rsClosed hp).congr rfl) rfl
  · exact h

/-- While the connection is open. -/
theorem Holds.rests_quiet (h : Holds s) (hdb : s.dbOpen = true) : Rests s.quiet := by
  rw [Stmt.quiet]
  split
  · next hp => exact (h.rests_rsClosed hp).congr rfl
  · next hp =>
    refine h.rests ?_
    by_contra hopen
    rw [Bool.not_eq_false] at hopen
    cases hc : s.pointer with
    | open_ => exact hp hc
    | null => exact h.bound hopen hc
    | closed => exact absurd (h.orphan hopen hc) (by rw [hdb]; decide)

theorem internalClose_keeps : Prog.Keeps Holds internalClose := fun _ h => (wp_internalClose h.shut).mpr h.quiet

/-! ## Plain statements -/

/-- What the executions of a plain statement come to. -/
theorem kept_prepared {rest : Bool → Op α} (h : Holds s) (hrest : ∀ r s', Holds s' → Rests s' →
      (rest r).wp (fun _ => Holds) Holds s') :
    (do internalClose; withConnectionTimeout w (do dbPrepare w; let r ← exec w; rest r) : Op α).wp
      (fun _ => Holds) Holds s ↔ Fresh s w := by
  rw [Prog.wp_bind, wp_internalClose h.shut, wp_withConnectionTimeout, Fresh]
  cases w.timeoutSet with
  | false => simp [h.quiet]
  | true =>
    rw [if_neg (by decide), Prog.wp_bind, wp_dbPrepare quiet_pointer]
    by_cases hopen : s.quiet.dbOpen = true ∧ w.prepared = true
    case neg =>
      rw [if_neg hopen]
      exact ⟨fun _ _ hdb _ hw => absurd ⟨quiet_dbOpen.trans hdb, hw⟩ hopen, fun _ => h.quiet⟩
    case pos =>
      have hdb : s.dbOpen = true := quiet_dbOpen.symm.trans hopen.1
      have hready : Ready { s.quiet with pointer := .open_, cursor := .reset } :=
        ⟨(h.rests_quiet hdb).congr rfl, rfl, rfl, hopen.1⟩
      rw [if_pos hopen, Prog.wp_bind]
      cases he : w.enforced with
      | false =>
        rw [wp_exec_refused hready.open_ he, hready.holds_iff]
        show s.quiet.resultsWaiting = false ↔ _
        simp [quiet_resultsWaiting, hdb, hopen.2]
      | true =>
        refine ⟨fun _ _ _ _ _ => rfl, fun _ => ?_⟩
        exact Prog.wp_mono (exec_spec hready he) (fun r s' hs' => hrest r s' hs'.1 hs'.2) fun _ => id

/-- These fields say nothing of the rows. -/
theorem Holds.flagged (h : Holds s) (exhausted closed completion closeStmt : Bool) : Holds { s with
    exhaustedResults := exhausted, closed, closeOnCompletion := completion, rs := { s.rs with closeStmt } } := by
  refine { h with rows := fun hopen hfull => ?_ }
  obtain ⟨e, n, hd⟩ := h.rows hopen hfull
  exact ⟨e, n, { hd with }⟩

theorem holds_exhausted (h : Holds s) (x : Bool) : Holds { s with exhaustedResults := x } :=
  h.flagged x s.closed s.closeOnCompletion s.rs.closeStmt

theorem kept_plain_execute (h : Holds s) :
    (Plain.execute w).wp (fun _ => Holds) Holds s ↔ (w.ext = none → Fresh s w) := by
  rw [Plain.execute]
  cases w.ext with
  | some returns =>
    rw [Prog.wp_bind, wp_internalClose h.shut, wp_withConnectionTimeout, Prog.wp_bind, Prog.wp_throwIf]
    simp only [reduceCtorEq, false_imp_iff, iff_true]
    split
    · exact h.quiet
    · split <;> exact h.quiet
  | none =>
    refine (kept_prepared h fun r s' hs' _ => ?_).trans ⟨fun hf _ => hf, fun hf => hf rfl⟩
    have hthrow : ∀ bad, Prog.Keeps Holds (Prog.throwIf bad : Op Unit) := Prog.keeps_throwIf
    refine ((hthrow _).bind fun _ => (hthrow _).bind fun _ => ?_) s' hs'
    exact (Prog.keeps_modify fun s' hs' => holds_exhausted hs' false).bind fun _ => Prog.keeps_pure r

theorem kept_plain_executeQuery (h : Holds s) : (Plain.executeQuery w).wp (fun _ => Holds) Holds s ↔ Fresh s w := by
  rw [Plain.executeQuery]
  refine kept_prepared h fun r s' hs' _ => ?_
  cases r with
  | true =>
    rw [if_pos rfl]
    exact ((Prog.keeps_modify fun s' hs' => holds_exhausted hs' false).bind fun _ => getResultSet_keeps) s' hs'
  | false =>
    rw [if_neg (by decide)]
    exact Prog.wp_then (internalClose_keeps s' hs') fun _ _ h => h

theorem keeps_withConnectionTimeout {p : Op α} {P : Stmt → Prop} (hp : Prog.Keeps P p) :
    Prog.Keeps P (withConnectionTimeout w p) :=
  (Prog.keeps_throwIf _).bind fun _ => hp.tryFinally (Prog.keeps_throwIf _)

theorem kept_plain_executeLargeUpdate : Prog.Keeps Holds (Plain.executeLargeUpdate w) := by
  refine internalClose_keeps.bind fun _ => keeps_withConnectionTimeout ?_
  cases w.ext with
  | some returns => exact Prog.keeps_throwIf _
  | none => exact (Prog.keeps_throwIf _).tryFinally internalClose_keeps

/-- The result set is closed, and the statement has a pointer. -/
def Aside (s : Stmt) : Prop := Rests s ∧ s.pointer ≠ .null

theorem Aside.congr {s' : Stmt} (h : Aside s) (hrs : s'.rs = s.rs) (hp : s'.pointer ≠ .null) : Aside s' :=
  ⟨h.1.congr hrs, hp⟩

theorem keeps_safeRun {p : Op α} {P : Stmt → Prop} (hp : Prog.Keeps P p) : Prog.Keeps P (safeRun p) := by
  intro s h
  rw [wp_safeRun]
  split
  · exact hp s h
  · exact h

theorem aside_reset : Prog.Keeps Aside reset :=
  keeps_safeRun (Prog.keeps_modify fun _ h => h.congr rfl h.2)

theorem aside_resetOpen : Prog.Keeps Aside resetOpen := by
  refine Prog.keeps_get.bind fun s => ?_
  split
  · exact aside_reset
  · exact Prog.keeps_pure ()

theorem aside_dbExecute : Prog.Keeps Aside (dbExecute w) := by
  intro s h
  cases hp : s.pointer with
  | null => exact absurd hp h.2
  | closed =>
    rw [dbExecute, Prog.wp_bind, wp_safeRun, hp]
    exact h
  | open_ =>
    have hstepped : ∀ a, Aside (s.stepped a) := fun a =>
      h.congr rfl (by rw [stepped_pointer]; exact h.2)
    rw [wp_dbExecute hp]
    split
    · exact h
    · split
      · exact hstepped .row
      · split <;> exact (hstepped .done).congr rfl (hstepped .done).2
      · exact hstepped .busy
      · exact (hstepped .error).congr rfl nofun
      · exact hstepped .crash

theorem aside_dbExecuteUpdate : Prog.Keeps Aside (dbExecuteUpdate w) :=
  ((aside_dbExecute.bind fun row => Prog.keeps_throwIf row).tryFinally aside_resetOpen).bind fun _ =>
    Prog.keeps_throwIf _

/-- Behind an entry of the batch its pointer is closed. -/
theorem batchEntries_holds : ∀ (ws : List Weather) (s : Stmt), Holds s → s.pointer ≠ .open_ →
    (Plain.batchEntries ws).wp (fun _ => Holds) Holds s
  | [], _, h, _ => h
  | w :: ws, s, h, hp => by
    have hclose : ∀ s', Aside s' →
        (Prog.get >>= fun s => Prog.onlyIf (s.pointer ≠ .null) closePointer : Op Unit).wp
          (fun _ s' => Holds s' ∧ s'.pointer ≠ .open_) Holds s' := by
      intro s' h'
      rw [Prog.wp_bind, Prog.wp_get, Prog.wp_onlyIf, if_pos h'.2, closePointer, Prog.wp_bind, Prog.wp_get]
      have hshut : Holds { s' with pointer := .closed } := Rests.holds_of_closed (h'.1.congr rfl) rfl
      split
      · next hnull => exact absurd hnull h'.2
      · exact ⟨hshut, nofun⟩
    refine Prog.wp_then (?_ : Prog.wp _ (fun _ s' => Holds s' ∧ s'.pointer ≠ .open_) Holds s) fun _ s' hs' =>
      batchEntries_holds ws s' hs'.1 hs'.2
    rw [Prog.wp_tryFinally, Prog.wp_bind, wp_dbPrepare hp]
    by_cases hopen : s.dbOpen = true ∧ w.prepared = true
    · rw [if_pos hopen]
      have hrests : Aside { s with pointer := .open_, cursor := .reset } := by
        have hquiet := h.rests_quiet hopen.1
        rw [Stmt.quiet, if_neg hp] at hquiet
        exact ⟨hquiet.congr rfl, nofun⟩
      exact Prog.wp_mono (aside_dbExecuteUpdate _ hrests) (fun _ => hclose) fun s' h' =>
        Prog.wp_mono (hclose s' h') (fun _ _ => And.left) fun _ => id
    · rw [if_neg hopen, Prog.wp_bind, Prog.wp_get, Prog.wp, onlyIf_closePointer hp]
      exact h

theorem kept_plain_executeLargeBatch {rows : List Weather} : Prog.Keeps Holds (Plain.executeLargeBatch rows) := by
  intro s h
  rw [Plain.executeLargeBatch, Prog.wp_bind, Prog.wp_get, Prog.wp_bind, wp_internalClose h.shut]
  split
  · exact h.quiet
  · exact batchEntries_holds rows _ h.quiet quiet_pointer

/-! ## Prepared statements -/

/-- `start` is over. -/
def Stmt.started (s : Stmt) : Stmt := { s.rsClosed with cursor := .reset, exhaustedResults := false }

theorem Stmt.rsClosed_pointer (hp : s.pointer = .open_) :
    s.rsClosed.pointer = if s.survives then .open_ else .closed := by
  rw [Stmt.rsClosed, hp]
  simp only [Stmt.mapRs]
  split
  · rfl
  · next hno =>
    rw [Bool.or_eq_true, not_or, Bool.not_eq_true, Bool.not_eq_true] at hno
    rw [if_pos ⟨hno.2, fun hopen => absurd (hno.1.symm.trans hopen) (by decide)⟩]
    exact hp

theorem Holds.ready (h : Holds s) (hp : s.pointer = .open_) (hsurvives : s.survives) : Ready s.started := by
  have hpointer : s.rsClosed.pointer = .open_ := by rw [Stmt.rsClosed_pointer hp, if_pos hsurvives]
  exact ⟨(h.rests_rsClosed hp).congr rfl, hpointer, rfl, rsClosed_dbOpen.trans (h.shut hp)⟩

theorem wp_start {Q : Unit → Stmt → Prop} (h : Holds s) (hp : s.pointer = .open_) : (Prepared.start w).wp Q Holds s ↔
    (s.survives → if w.enforced = true then Q () s.started else s.resultsWaiting = false) := by
  rw [Prepared.start, Prog.wp_bind, wp_rsClose h.shut, hp, if_neg (by decide), Prog.wp_bind, wp_reset]
  have hpointer := Stmt.rsClosed_pointer hp
  by_cases hsurvives : s.survives
  · have hready := h.ready hp hsurvives
    rw [if_pos (show s.rsClosed.pointer = .open_ from hready.pointer), Prog.wp_bind, Prog.wp_modify, Prog.wp_throwIf]
    cases w.enforced with
    | true => exact ⟨fun hq _ => hq, fun hq => hq hsurvives⟩
    | false =>
      have hiff : Holds s.started ↔ s.resultsWaiting = false := by
        rw [hready.holds_iff]
        exact Eq.congr_left rsClosed_resultsWaiting
      exact hiff.trans ⟨fun hq _ => hq, fun hq => hq hsurvives⟩
  · rw [if_neg hsurvives] at hpointer
    rw [if_neg (by rw [hpointer]; decide)]
    exact ⟨fun _ hno => absurd hno hsurvives, fun _ => (h.rests_rsClosed hp).holds_of_closed hpointer⟩

/-- Where what returns is right, a program is as good as its first part. -/
theorem wp_bind_iff {β : Type} {p : Op α} {f : α → Op β} {P : Stmt → Prop}
    (hreturns : p.wp (fun _ => P) (fun _ => True) s) (hf : ∀ a, Prog.Keeps P (f a)) :
    (p >>= f).wp (fun _ => P) P s ↔ p.wp (fun _ => P) P s := by
  rw [Prog.wp_bind]
  unfold Prog.wp at hreturns ⊢
  split at hreturns
  · exact iff_of_true (hf _ _ hreturns) hreturns
  · rfl

/-- Behind an execution that threw. -/
theorem wp_resetOpen (hrests : Rests s) (hdb : s.dbOpen = true) (hp : s.pointer = .open_) :
    resetOpen.wp (fun _ => Holds) Holds s ↔ s.resultsWaiting = false := by
  have hready : Ready { s with cursor := .reset } := ⟨hrests.congr rfl, hp, rfl, hdb⟩
  rw [resetOpen, Prog.wp_bind, Prog.wp_get, hp, if_pos (by decide), wp_reset, if_pos hp]
  exact hready.holds_iff

theorem run_returns (h : Ready s) (keys : Bool) :
    (Prepared.run keys w).wp (fun _ => Holds) (fun _ => True) s := by
  have hthrown : ∀ s', resetOpen.wp (fun _ _ => True) (fun _ => True) s' := fun s' => by
    unfold Prog.wp
    split <;> trivial
  rw [Prepared.run, Prog.wp_onThrow, Prog.wp_bind, wp_dbExecute h.pointer]
  have hnoted : ∀ row s', Holds { s' with resultsWaiting := row } →
      (do Prog.modify fun s => { s with resultsWaiting := row }; Prog.throwIf !keys : Op Unit).wp (fun _ => Holds)
        (resetOpen.wp (fun _ _ => True) fun _ => True) s' := by
    intro row s' hs'
    rw [Prog.wp_bind, Prog.wp_modify, Prog.wp_throwIf]
    split
    · exact hthrown _
    · exact hs'
  split
  · exact hthrown _
  · split
    · exact hnoted _ _ h.waits
    · split
      · exact hnoted _ _ (h.done h.dbOpen .done .reset)
      · exact hthrown _
    all_goals exact hthrown _

/-- An execution of a prepared statement that was reset. -/
theorem kept_run (h : Ready s) (keys : Bool) (he : w.enforced = true) (ht : w.timeoutSet = true) :
    (Prepared.run keys w).wp (fun _ => Holds) Holds s ↔
      (w.throws → s.resultsWaiting = false) ∧ (¬ w.throws → w.answer = .row → keys = true) := by
  rw [Prepared.run, Prog.wp_onThrow, Prog.wp_bind, wp_dbExecute h.pointer]
  have hreset : ∀ s' : Stmt, s'.rs = s.rs → s'.dbOpen = s.dbOpen → s'.pointer = s.pointer →
      (resetOpen.wp (fun _ => Holds) Holds s' ↔ s'.resultsWaiting = false) := fun s' hrs hdb hp =>
    wp_resetOpen (h.toRests.congr hrs) (hdb.trans h.dbOpen) (hp.trans h.pointer)
  simp only [Weather.throws, he, ht, Bool.true_eq_false, false_or]
  cases hb : w.bound with
  | false => simp [hreset s rfl rfl rfl]
  | true =>
    cases ha : w.answer with
    | row =>
      rw [Prog.wp_bind, Prog.wp_modify, Prog.wp_throwIf]
      cases keys with
      | true => exact iff_of_true h.waits (by simp)
      | false => simp [hreset, h.pointer]
    | done =>
      cases hc : w.settled with
      | true =>
        have hdone := h.done h.dbOpen .done .reset
        simp only [Prog.wp_bind, Prog.wp_modify, Prog.wp_throwIf]
        cases keys with
        | true => exact iff_of_true hdone (by simp)
        | false => simp [hreset, h.pointer]
      | false => simp [hreset, h.pointer]
    | busy => simpa using hreset (s.stepped .busy) rfl rfl rfl
    | crash => simpa using hreset (s.stepped .crash) rfl rfl rfl
    | error =>
      have hrests : Rests { s.stepped .error with pointer := .closed } := h.toRests.congr rfl
      exact iff_of_true (hrests.holds_of_closed rfl) (by simp)

theorem started_resultsWaiting : s.started.resultsWaiting = s.resultsWaiting := rsClosed_resultsWaiting

/-- `execute` and `executeQuery`, up to what they do with the result. -/
theorem kept_execution {keys : Bool} {rest : Op α} (h : Holds s) (hp : s.pointer = .open_)
    (hrest : Prog.Keeps Holds rest) :
    (do Prepared.start w; withConnectionTimeout w (do Prepared.run keys w; rest) : Op α).wp (fun _ => Holds) Holds s ↔
      (s.survives → (w.throws → s.resultsWaiting = false) ∧ (¬ w.throws → w.answer = .row → keys = true)) := by
  rw [Prog.wp_bind, wp_start h hp]
  refine forall_congr' fun hsurvives => ?_
  have hready := h.ready hp hsurvives
  cases he : w.enforced with
  | false => simp [Weather.throws, he]
  | true =>
    rw [if_pos rfl, wp_withConnectionTimeout]
    cases ht : w.timeoutSet with
    | false =>
      rw [if_pos rfl, hready.holds_iff]
      simp [Weather.throws, ht, started_resultsWaiting]
    | true =>
      rw [if_neg (by decide), wp_bind_iff (run_returns hready keys) fun _ => hrest, kept_run hready keys he ht,
        started_resultsWaiting]

theorem kept_prepared_execute {n : Nat} (h : Holds s) : (Prepared.execute n w).wp (fun _ => Holds) Holds s ↔
    (s.pointer = .open_ → s.survives →
      (w.throws → s.resultsWaiting = false) ∧ (¬ w.throws → w.answer = .row → w.keys = true)) := by
  rw [Prepared.execute, wp_safeRun]
  by_cases hp : s.pointer = .open_
  · rw [if_pos hp, kept_execution h hp ((Prog.keeps_throwIf _).bind fun _ => Prog.keeps_pure _)]
    exact ⟨fun hs _ => hs, fun hs => hs hp⟩
  · rw [if_neg hp]
    exact iff_of_true h fun hno => absurd hno hp

theorem kept_prepared_executeQuery {n : Nat} (h : Holds s) :
    (Prepared.executeQuery n w).wp (fun _ => Holds) Holds s ↔
      (n ≠ 0 → s.pointer = .open_ → s.survives → w.throws → s.resultsWaiting = false) := by
  rw [Prepared.executeQuery, wp_safeRun]
  by_cases hp : s.pointer = .open_
  · rw [if_pos hp, Prog.wp_bind, Prog.wp_throwIf]
    by_cases hn : n = 0
    · rw [if_pos (by simpa using hn)]
      exact iff_of_true h fun hno => absurd hn hno
    · rw [if_neg (by simpa using hn), kept_execution h hp getResultSet_keeps]
      simp [hn, hp]
  · rw [if_neg hp]
    exact iff_of_true h fun _ hno => absurd hno hp

theorem wp_throwIf_same {P : Stmt → Prop} {bad : Bool} : (Prog.throwIf bad : Op Unit).wp (fun _ => P) P = P := by
  funext s
  exact propext (Prog.wp_throwIf.trans (by rw [ite_self]))

/-- Whatever comes of it, what waited is gone, unless the pointer is. -/
theorem kept_dbExecuteUpdate (h : Ready s) : (dbExecuteUpdate w).wp (fun _ => Holds) Holds s ↔
    (s.resultsWaiting = true → w.bound = true ∧ w.answer = .error) := by
  have hreset : ∀ s' : Stmt, s'.rs = s.rs → s'.dbOpen = s.dbOpen → s'.pointer = s.pointer →
      (resetOpen.wp (fun _ => Holds) Holds s' ↔ s'.resultsWaiting = false) := fun s' hrs hdb hp =>
    wp_resetOpen (h.toRests.congr hrs) (hdb.trans h.dbOpen) (hp.trans h.pointer)
  rw [dbExecuteUpdate, Prog.wp_bind, Prog.wp_tryFinally, Prog.wp_bind, wp_dbExecute h.pointer]
  simp only [wp_throwIf_same]
  cases hb : w.bound with
  | false => simp [hreset]
  | true =>
    cases ha : w.answer with
    | row => simpa using hreset (s.stepped .row) rfl rfl rfl
    | done =>
      cases hc : w.settled <;> simp [hreset, h.pointer]
    | busy => simpa using hreset (s.stepped .busy) rfl rfl rfl
    | crash => simpa using hreset (s.stepped .crash) rfl rfl rfl
    | error =>
      have hrests : Rests { s.stepped .error with pointer := .closed } := h.toRests.congr rfl
      exact iff_of_true (hrests.holds_of_closed rfl) (by simp)

theorem kept_prepared_executeLargeUpdate {n : Nat} (h : Holds s) :
    (Prepared.executeLargeUpdate n w).wp (fun _ => Holds) Holds s ↔
      (n = 0 → s.pointer = .open_ → s.survives → s.resultsWaiting = true →
        w.enforced = true ∧ w.timeoutSet = true ∧ w.bound = true ∧ w.answer = .error) := by
  rw [Prepared.executeLargeUpdate, wp_safeRun]
  by_cases hp : s.pointer = .open_
  case neg =>
    rw [if_neg hp]
    exact iff_of_true h fun _ hno => absurd hno hp
  case pos =>
    rw [if_pos hp, Prog.wp_bind, Prog.wp_throwIf]
    by_cases hn : n = 0
    case neg =>
      rw [if_pos (by simpa using hn)]
      exact iff_of_true h fun hno => absurd hno hn
    case pos =>
      rw [if_neg (by simpa using hn), Prog.wp_bind, wp_start h hp]
      simp only [hn, hp, forall_const]
      refine forall_congr' fun hsurvives => ?_
      have hready := h.ready hp hsurvives
      rw [wp_withConnectionTimeout, hready.holds_iff, started_resultsWaiting, Prog.wp_bind]
      simp only [wp_throwIf_same]
      rw [kept_dbExecuteUpdate hready, started_resultsWaiting]
      cases w.enforced <;> cases w.timeoutSet <;> simp

/-! ## The batch of a prepared statement -/

/-- What a batch leaves: SQLite's statement has nothing to show. -/
structure Left (s s' : Stmt) : Prop where
  rs : s'.rs = s.rs
  dbOpen : s'.dbOpen = s.dbOpen
  pointer : s'.pointer = .open_
  resultsWaiting : s'.resultsWaiting = s.resultsWaiting
  delivered : s'.delivered = s.delivered
  endedAt : s'.endedAt = s.endedAt
  cursor : ∀ e n, s'.cursor ≠ .running e n
  failed : ∀ e n, s'.cursor = .failed e n → n = 0

theorem Left.reset {s' : Stmt} (h : Left s s') : Left s { s' with cursor := .reset } :=
  { h with cursor := nofun, failed := nofun }

/-- A step on a statement that was reset: no row of it is kept. -/
theorem Left.step {s' : Stmt} (h : Left s s') (hc : s'.cursor = .reset) (a : Answer) :
    Left s { s'.stepped a with cursor := .reset } ∧ (a ≠ .row → Left s (s'.stepped a)) := by
  refine ⟨⟨h.rs, h.dbOpen, h.pointer, h.resultsWaiting, h.delivered, h.endedAt, nofun, nofun⟩, fun ha =>
    ⟨h.rs, h.dbOpen, h.pointer, h.resultsWaiting, h.delivered, h.endedAt, ?_, ?_⟩⟩
  · intro e n
    cases a <;> simp [Stmt.stepped, Stmt.moved, hc] at ha ⊢
  · intro e n hf
    cases a <;> simp_all [Stmt.stepped, Stmt.moved, Stmt.execution]

theorem batchRows_left : ∀ (ws : List Weather) (s' : Stmt), Left s { s' with cursor := .reset } →
    (ws = [] → Left s s') →
    (batchRows ws).wp (fun _ => Left s) (Left s) s'
  | [], _, _, h => h rfl
  | w :: ws, s', hleft, _ => by
    rw [batchRows, Prog.wp_bind, wp_reset, if_pos hleft.pointer, Prog.wp_bind, Prog.wp_throwIf]
    split
    · exact hleft
    · rw [Prog.wp_bind, wp_step_]
      obtain ⟨hback, hkeep⟩ := hleft.step rfl w.answer
      split
      · next ha => exact hkeep (by rw [ha]; decide)
      · split
        · rw [Prog.wp_bind, wp_reset, if_pos hback.pointer]
          exact hback
        · next hdone =>
          have hnext := hkeep (by rw [not_not.mp hdone]; decide)
          rw [Prog.wp_bind, Prog.wp_throwIf]
          split
          · exact hnext
          · exact batchRows_left ws _ hnext.reset fun _ => hnext

/-- Whichever way the batch goes. -/
theorem batch_left {rows : List Weather} (settled : Bool) (hp : s.pointer = .open_) (hrows : rows ≠ []) :
    (do Prog.tryFinally (batchRows rows) (Prog.throwIf !settled); reset : Op Unit).wp (fun _ => Left s) (Left s) s := by
  have hreset : Left s { s with cursor := .reset } := ⟨rfl, rfl, hp, rfl, rfl, rfl, nofun, nofun⟩
  have hthrow : Prog.Keeps (Left s) (Prog.throwIf !settled : Op Unit) := Prog.keeps_throwIf _
  have hfinal : (Prog.tryFinally (batchRows rows) (Prog.throwIf !settled)).wp (fun _ => Left s) (Left s) s :=
    Prog.wp_tryFinally.mpr (Prog.wp_mono (batchRows_left rows s hreset fun hno => absurd hno hrows)
      (fun _ => hthrow) hthrow)
  refine Prog.wp_then hfinal fun _ s' hl => ?_
  rw [wp_reset, if_pos hl.pointer]
  exact hl.reset

/-- Behind a batch nothing may wait or be open. -/
theorem Left.holds_iff {s' : Stmt} (h : Holds s) (hp : s.pointer = .open_) (hl : Left s s') :
    Holds s' ↔ s.resultsWaiting = false ∧ ¬ s.active := by
  refine ⟨fun h' => ⟨?_, fun ⟨hopen, hfull, hpast⟩ => ?_⟩, fun ⟨hwaiting, hactive⟩ => ?_⟩
  · by_contra hw
    obtain ⟨e, he⟩ := h'.waiting (hl.resultsWaiting.trans (by simpa using hw)) hl.pointer
    exact hl.cursor e 1 he
  · obtain ⟨e, n, hd⟩ := h'.rows (by rw [hl.rs]; exact hopen) (by rw [hl.rs]; exact hfull)
    rcases hd.here (by rw [hl.rs]; exact hpast) hl.pointer with hr | ⟨hn, hf⟩
    · exact hl.cursor _ _ hr
    · exact absurd (hl.failed _ _ hf) (by omega)
  · refine ⟨fun _ => hl.dbOpen.trans (h.shut hp), fun _ => by rw [hl.pointer]; decide, fun _ hc => ?_, fun hopen => ?_,
      fun hopen => ?_, fun hw => ?_, ?_, fun hopen hfull => ?_⟩
    · exact absurd (hl.pointer.symm.trans hc) (by decide)
    · exact ⟨hl.resultsWaiting.trans hwaiting, by rw [hl.rs] at hopen ⊢; exact (h.fetched hopen).2⟩
    · rw [hl.rs] at hopen ⊢
      exact h.idle hopen
    · exact absurd (hl.resultsWaiting.symm.trans hw) (by rw [hwaiting]; decide)
    · rw [hl.rs]
      exact h.limited
    · rw [hl.rs] at hopen hfull
      obtain ⟨e, n, hd⟩ := h.rows hopen hfull
      have hpast : s.rs.pastLastRow = true := by
        by_contra hno
        exact hactive ⟨hopen, hfull, (Bool.not_eq_true _).mp hno⟩
      refine ⟨e, n, hl.delivered.trans hd.delivered, by rw [hl.rs]; exact hd.row, hd.small,
        fun _ => hl.endedAt.trans (hd.past hpast), fun hno => ?_, fun hno => ?_⟩
      all_goals
        rw [hl.rs, hpast] at hno
        cases hno

theorem kept_prepared_executeLargeBatch {rows : List Weather} (h : Holds s) :
    (Prepared.executeLargeBatch w rows).wp (fun _ => Holds) Holds s ↔
      (rows ≠ [] → w.enforced = true → w.timeoutSet = true → s.pointer = .open_ → w.bound = true →
        s.resultsWaiting = false ∧ ¬ s.active) := by
  rw [Prepared.executeLargeBatch]
  cases rows with
  | nil => exact iff_of_true h fun hno => absurd rfl hno
  | cons row rows =>
    rw [if_neg (by simp), Prog.wp_bind, Prog.wp_throwIf]
    cases w.enforced with
    | false => exact iff_of_true h nofun
    | true =>
      rw [if_neg (by decide), wp_withConnectionTimeout]
      cases w.timeoutSet with
      | false => exact iff_of_true h nofun
      | true =>
        rw [if_neg (by decide), dbExecuteBatch, wp_safeRun]
        by_cases hp : s.pointer = .open_
        case neg =>
          rw [if_neg hp]
          exact iff_of_true h fun _ _ _ hno => absurd hno hp
        case pos =>
          rw [if_pos hp, Prog.wp_bind, Prog.wp_throwIf]
          cases w.bound with
          | false => exact iff_of_true h nofun
          | true =>
            rw [if_neg (by decide)]
            have hleft := batch_left w.settled hp (List.cons_ne_nil row rows)
            refine ⟨fun hkept _ _ _ _ _ => ?_, fun hok => ?_⟩
            · exact (Left.holds_iff h hp (Prog.wp_state hleft)).mp (Prog.wp_state hkept)
            · have hholds := hok (by simp) rfl rfl hp rfl
              exact Prog.wp_mono hleft (fun _ s' hl => (hl.holds_iff h hp).mpr hholds) fun s' hl =>
                (hl.holds_iff h hp).mpr hholds

/-! ## The other calls -/

theorem kept_close : Prog.Keeps Holds close :=
  internalClose_keeps.bind fun _ => Prog.keeps_modify fun s h => h.flagged s.exhaustedResults true s.closeOnCompletion
    s.rs.closeStmt

/-- The result set is closed with its statement behind it. -/
theorem Holds.rsClosed (h : Holds s) (hp : s.pointer = .open_) : Holds s.rsClosed := by
  refine (h.rests_rsClosed hp).holds_iff.mpr ⟨fun _ => rsClosed_dbOpen.trans (h.shut hp), fun hw hpointer => ?_⟩
  rw [rsClosed_resultsWaiting] at hw
  rw [Stmt.rsClosed_pointer hp] at hpointer
  have hsurvives : s.survives := by
    by_contra hno
    rw [if_neg hno] at hpointer
    cases hpointer
  have hopen : s.rs.open_ = false := by
    by_contra hopen
    exact absurd ((h.fetched ((Bool.not_eq_false _).mp hopen)).1.symm.trans hw) (by decide)
  rw [Stmt.rsClosed, hp, hopen, hsurvives.1]
  exact h.waiting hw hp

theorem kept_rsClose (h : Holds s) :
    rsClose.wp (fun _ => Holds) Holds s ↔ (s.rs.open_ = true → s.pointer ≠ .closed) := by
  rw [wp_rsClose h.shut, ite_self]
  cases hp : s.pointer with
  | open_ => exact iff_of_true (h.rsClosed hp) fun _ => by decide
  | null =>
    have hopen : s.rs.open_ = false := by
      by_contra hopen
      exact h.bound ((Bool.not_eq_false _).mp hopen) hp
    have hrests : Rests (s.mapRs ResultSet.cleared) := ⟨hopen, rfl, rfl, h.limited.1⟩
    rw [Stmt.rsClosed, hp]
    refine iff_of_true (hrests.holds_iff.mpr ⟨fun hno => ?_, fun _ hno => ?_⟩) fun _ => by decide
    all_goals exact absurd (hp.symm.trans hno) (by decide)
  | closed =>
    rw [Stmt.rsClosed, hp]
    cases hopen : s.rs.open_ with
    | true =>
      -- The result set stays open, without columns and before the first row.
      refine iff_of_false (fun hs => ?_) fun hno => hno rfl rfl
      have hcols : false = true := (hs.fetched hopen).2
      cases hcols
    | false =>
      have hrests : Rests { s.mapRs ResultSet.cleared with closed := s.closed || (false && s.closeOnCompletion) } :=
        ⟨hopen, rfl, rfl, h.limited.1⟩
      exact iff_of_true (hrests.holds_of_closed hp) nofun

theorem kept_getMoreResults : Prog.Keeps Holds getMoreResults := by
  intro s h
  rw [getMoreResults, wp_safeRun]
  split
  · next hp =>
    rw [Prog.wp_bind]
    exact Prog.wp_mono ((kept_rsClose h).mpr fun _ => by rw [hp]; decide) (fun _ s' hs' => holds_exhausted hs' true)
      fun _ => id
  · exact h

theorem kept_setLargeMaxRows {max : Int} (h : Holds s) : (setLargeMaxRows max).wp (fun _ => Holds) Holds s ↔
    (max ≤ 0 ∨ s.rs.row ≤ max) := by
  rw [setLargeMaxRows, Prog.wp_bind, Prog.wp_throwIf]
  split
  · next hneg => exact iff_of_true h (.inl (by simp at hneg; omega))
  · next hneg =>
    rw [Prog.wp_modify]
    have hmax : 0 ≤ max := by simpa using hneg
    refine ⟨fun hs => ?_, fun hle => ?_⟩
    · have hlimit : max ≠ 0 → s.rs.row ≤ max := hs.limited.2
      omega
    · have hlimit : max ≠ 0 → s.rs.row ≤ max := by omega
      refine { h with limited := ⟨hmax, hlimit⟩, rows := fun hopen hfull => ?_ }
      obtain ⟨e, n, hd⟩ := h.rows hopen hfull
      exact ⟨e, n, { hd with }⟩

theorem kept_closeOnCompletion : Prog.Keeps Holds closeOnCompletion :=
  Prog.keeps_get.bind fun _ => (Prog.keeps_throwIf _).bind fun _ => Prog.keeps_modify fun s h =>
    h.flagged s.exhaustedResults s.closed true s.rs.closeStmt

theorem kept_closeDB (h : Holds s) : closeDB.wp (fun _ => Holds) Holds s ↔ (s.active → s.rs.row ≠ 0) := by
  rw [closeDB, Prog.wp_modify]
  have hpointer : (if s.pointer = .open_ then Pointer.closed else s.pointer) ≠ .open_ := by
    split
    · decide
    · assumption
  refine ⟨fun hs ⟨hopen, hfull, hpast⟩ => ?_, fun hrow => ?_⟩
  · obtain ⟨e, n, hd⟩ := hs.rows hopen hfull
    have hbegun : 0 < n := by
      refine hd.begun hpast ?_
      show (if s.pointer = .open_ then Pointer.closed else s.pointer) = .closed
      cases hp : s.pointer with
      | null => exact absurd hp (h.bound hopen)
      | open_ | closed => rfl
    have hn : s.rs.row = n := hd.row
    omega
  · refine ⟨fun hno => absurd hno hpointer, fun hopen => ?_, fun _ _ => rfl, h.fetched, h.idle,
      fun _ hno => absurd hno hpointer, h.limited, fun hopen hfull => ?_⟩
    · show (if s.pointer = .open_ then Pointer.closed else s.pointer) ≠ .null
      split
      · decide
      · exact h.bound hopen
    · obtain ⟨e, n, hd⟩ := h.rows hopen hfull
      refine ⟨e, n, hd.delivered, hd.row, hd.small, hd.past, fun _ hno => absurd hno hpointer, fun hpast _ => ?_⟩
      have hn := hd.row
      have := hrow ⟨hopen, hfull, hpast⟩
      omega

/-! ## Going on to the next row -/

theorem rowsOf_succ (e n : Nat) : rowsOf e (n + 1) = rowsOf e n ++ [some (e, n + 1)] := by
  simp only [rowsOf, List.range_succ, List.map_append, List.map_cons, List.map_nil]

theorem rowsOf_inj {e e' n n' : Nat} (h : rowsOf e n = rowsOf e' n') : n = n' ∧ (0 < n → e = e') := by
  have hlen : n = n' := by simpa [rowsOf] using congrArg List.length h
  subst hlen
  refine ⟨rfl, fun hn => ?_⟩
  obtain ⟨n, rfl⟩ : ∃ k, n = k + 1 := ⟨n - 1, by omega⟩
  rw [rowsOf_succ, rowsOf_succ] at h
  simpa using (List.append_inj' h rfl).2

/-- The row that is there already. -/
theorem Delivered.first (h : Holds s) {e n : Nat} (hd : Delivered s e n) (hopen : s.rs.open_ = true)
    (hpast : s.rs.pastLastRow = false) (hrow : s.rs.row = 0) :
    n = 0 ∧ s.pointer = .open_ ∧ s.cursor = .running e 1 := by
  have hn : n = 0 := by
    have := hd.row
    omega
  subst hn
  have hpointer : s.pointer = .open_ := by
    cases hp : s.pointer with
    | open_ => rfl
    | null => exact absurd hp (h.bound hopen)
    | closed => exact absurd (hd.begun hpast hp) (by omega)
  refine ⟨rfl, hpointer, (hd.here hpast hpointer).resolve_right fun hf => ?_⟩
  exact absurd hf.1 (by omega)

/-- What `arrive` leaves is right when SQLite's statement is at the next row. -/
theorem arrive_iff (h : Holds s) {e n : Nat} (hd : Delivered s e n) (hopen : s.rs.open_ = true)
    (hfull : s.rs.emptyResultSet = false) (hpast : s.rs.pastLastRow = false) (hp : s.pointer = .open_)
    (hlimit : s.rs.maxRows ≠ 0 → s.rs.row ≠ s.rs.maxRows) (x e' n' : Nat) :
    arrive.wp (fun _ => Holds) Holds { s with cursor := .running e' n', executions := x } ↔
      (0 < n → e' = e) ∧ n' = n + 1 ∧ s.rs.row + 1 < 2147483648 := by
  have hshown : Stmt.shown { s with cursor := .running e' n', executions := x } = some (e', n') := by
    simp only [Stmt.shown, hp]
  have hrow := hd.row
  rw [arrive, Prog.wp_bind, Prog.wp_modify]
  show Holds { s with
    cursor := .running e' n'
    executions := x
    rs := { s.rs with row := i32 (s.rs.row + 1) }
    delivered := s.delivered ++ [Stmt.shown { s with cursor := .running e' n', executions := x }] } ↔ _
  rw [hshown, hd.delivered]
  refine ⟨fun hs => ?_, fun ⟨he, hn', hsmall⟩ => ?_⟩
  · obtain ⟨e₂, n₂, hd₂⟩ := hs.rows hopen hfull
    have hrows : rowsOf e n ++ [some (e', n')] = rowsOf e₂ n₂ := hd₂.delivered
    have hlen : n + 1 = n₂ := by simpa [rowsOf] using congrArg List.length hrows
    subst hlen
    rw [rowsOf_succ] at hrows
    obtain ⟨hold, hnew⟩ := List.append_inj' hrows rfl
    have hnew' : e' = e₂ ∧ n' = n + 1 := by simpa using hnew
    have hsmall := hd₂.small
    exact ⟨fun hn => hnew'.1.trans ((rowsOf_inj hold).2 hn).symm, hnew'.2, by omega⟩
  · have hi : i32 (s.rs.row + 1) = s.rs.row + 1 := i32_of_bounds (by omega) hsmall
    rw [hi]
    refine ⟨h.shut, h.bound, h.orphan, h.fetched, fun hno => ?_, fun hw => ?_, ⟨h.limited.1, fun hmax => ?_⟩,
      fun _ _ => ?_⟩
    · exact absurd (hopen.symm.trans hno) (by decide)
    · exact absurd ((h.fetched hopen).1.symm.trans hw) (by decide)
    · have hle := h.limited.2 hmax
      have hne := hlimit hmax
      show s.rs.row + 1 ≤ s.rs.maxRows
      omega
    · refine ⟨e', n + 1, ?_, ?_, by omega, fun hno => absurd (hpast.symm.trans hno) (by decide), fun _ _ => .inl ?_,
        fun _ _ => Nat.succ_pos n⟩
      · show rowsOf e n ++ [some (e', n')] = rowsOf e' (n + 1)
        rw [rowsOf_succ, hn']
        rcases Nat.eq_zero_or_pos n with rfl | hn
        · rfl
        · rw [he hn]
      · show s.rs.row + 1 = ((n + 1 : Nat) : Int)
        omega
      · rw [hn', Nat.max_eq_left (Nat.succ_pos n)]

/-- Past the last row, when that is where the execution ended. -/
theorem past_iff (h : Holds s) {e n : Nat} (hd : Delivered s e n) (hopen : s.rs.open_ = true)
    (hfull : s.rs.emptyResultSet = false) (hn : 0 < n) (c : Cursor) (x : Nat) (p : Option (Nat × Nat)) :
    Holds { s with cursor := c, executions := x, rs := { s.rs with pastLastRow := true }, endedAt := p } ↔
      p = some (e, n) := by
  refine ⟨fun hs => ?_, fun hp => ?_⟩
  · obtain ⟨e₂, n₂, hd₂⟩ := hs.rows hopen hfull
    obtain ⟨hlen, he⟩ := rowsOf_inj (hd.delivered.symm.trans hd₂.delivered)
    rw [hlen, he hn]
    exact hd₂.past rfl
  · refine ⟨h.shut, h.bound, h.orphan, h.fetched, fun hno => ?_, fun hw => ?_, h.limited, fun _ _ => ?_⟩
    · exact absurd (hopen.symm.trans hno) (by decide)
    · exact absurd ((h.fetched hopen).1.symm.trans hw) (by decide)
    · exact ⟨e, n, hd.delivered, hd.row, hd.small, fun _ => hp, nofun, nofun⟩

/-- A step that failed. -/
theorem failed_holds (h : Holds s) {e n : Nat} (hd : Delivered s e n) (hopen : s.rs.open_ = true)
    (hn : 0 < n) (x : Nat) :
    Holds { s with cursor := .failed e n, executions := x } := by
  refine ⟨h.shut, h.bound, h.orphan, h.fetched, h.idle, fun hw => ?_, h.limited, fun _ _ => ?_⟩
  · exact absurd ((h.fetched hopen).1.symm.trans hw) (by decide)
  · exact ⟨e, n, hd.delivered, hd.row, hd.small, hd.past, fun _ _ => .inr ⟨hn, rfl⟩, hd.begun⟩

/-- What `next` does from its second row on. -/
def onward (a : Answer) : Op Bool := do
  safeRun (step_ a)
  match a with
  | .done => do
    Prog.modify fun s => { s with rs := { s.rs with pastLastRow := true }, endedAt := s.end_ }
    pure false
  | .row => arrive
  | .busy | .error | .crash => Prog.throw

/-- Behind a step that failed, SQLite begins the query again. -/
theorem onward_iff {a : Answer} (h : Holds s) {e n : Nat} (hd : Delivered s e n) (hopen : s.rs.open_ = true)
    (hfull : s.rs.emptyResultSet = false) (hpast : s.rs.pastLastRow = false) (hp : s.pointer = .open_)
    (hlimit : s.rs.maxRows ≠ 0 → s.rs.row ≠ s.rs.maxRows) (hn : 0 < n) :
    (onward a).wp (fun _ => Holds) Holds s ↔
      (a = .row ∨ a = .done → (∀ e n, s.cursor ≠ .failed e n) ∧ (a = .row → s.rs.row + 1 < 2147483648)) := by
  unfold onward
  rw [Prog.wp_bind, wp_safeRun, if_pos hp, wp_step_]
  rcases hd.here hpast hp with hc | ⟨-, hc⟩
  · rw [Nat.max_eq_left hn] at hc
    cases a with
    | row =>
      rw [if_neg (by decide)]
      simp only [Stmt.stepped, Stmt.moved, Stmt.execution, hc]
      rw [arrive_iff h hd hopen hfull hpast hp hlimit]
      simp
    | done =>
      rw [if_neg (by decide)]
      simp only [Prog.wp_bind, Prog.wp_modify, Stmt.stepped, Stmt.moved, Stmt.execution, hc, Stmt.end_]
      exact iff_of_true ((past_iff h hd hopen hfull hn _ _ _).mpr rfl) (by simp)
    | busy | error | crash =>
      simp only [Stmt.stepped, Stmt.moved, Stmt.execution, hc]
      exact iff_of_true (by simpa using failed_holds h hd hopen hn _) (by simp)
  · cases a with
    | row =>
      rw [if_neg (by decide)]
      simp only [Stmt.stepped, Stmt.moved, Stmt.execution, hc]
      rw [arrive_iff h hd hopen hfull hpast hp hlimit]
      refine iff_of_false (fun hno => ?_) (by simp)
      have := hno.2.1
      omega
    | done =>
      rw [if_neg (by decide)]
      simp only [Prog.wp_bind, Prog.wp_modify, Stmt.stepped, Stmt.moved, Stmt.execution, hc, Stmt.end_]
      refine iff_of_false (fun hno => ?_) (by simp)
      have hend := (past_iff h hd hopen hfull hn _ _ _).mp hno
      simp only [Option.some.injEq, Prod.mk.injEq] at hend
      omega
    | busy | error | crash =>
      simp only [Stmt.stepped, Stmt.moved, Stmt.execution, hc]
      exact iff_of_true (by simpa using failed_holds h hd hopen hn _) (by simp)

theorem next_eq (a : Answer) : next a = Prog.get >>= fun s =>
    if !s.rs.open_ || s.rs.emptyResultSet || s.rs.pastLastRow then pure false
    else if s.rs.row = 0 then arrive
    else if s.rs.maxRows ≠ 0 ∧ s.rs.row = s.rs.maxRows then pure false
    else onward a := rfl

theorem kept_next {a : Answer} (h : Holds s) : (next a).wp (fun _ => Holds) Holds s ↔
    (s.active → s.rs.row ≠ 0 → (s.rs.maxRows ≠ 0 → s.rs.row ≠ s.rs.maxRows) → s.pointer = .open_ →
      a = .row ∨ a = .done → (∀ e n, s.cursor ≠ .failed e n) ∧ (a = .row → s.rs.row + 1 < 2147483648)) := by
  rw [next_eq, Prog.wp_bind, Prog.wp_get]
  by_cases hactive : s.active
  case neg =>
    have hstay : (!s.rs.open_ || s.rs.emptyResultSet || s.rs.pastLastRow) = true := by
      by_contra hno
      simp only [Bool.or_eq_true, Bool.not_eq_true', not_or, Bool.not_eq_false, Bool.not_eq_true] at hno
      exact hactive ⟨hno.1.1, hno.1.2, hno.2⟩
    rw [if_pos hstay]
    exact iff_of_true h fun hno => absurd hno hactive
  case pos =>
    obtain ⟨hopen, hfull, hpast⟩ := hactive
    obtain ⟨e, n, hd⟩ := h.rows hopen hfull
    have hgo : ¬ (!s.rs.open_ || s.rs.emptyResultSet || s.rs.pastLastRow) = true := by
      rw [hopen, hfull, hpast]
      decide
    rw [if_neg hgo]
    by_cases hrow : s.rs.row = 0
    case pos =>
      obtain ⟨rfl, hp, hc⟩ := hd.first h hopen hpast hrow
      rw [if_pos hrow]
      refine iff_of_true ?_ fun _ hno => absurd hrow hno
      have hself : s = { s with cursor := .running e 1, executions := s.executions } := by rw [← hc]
      rw [hself]
      refine (arrive_iff h hd hopen hfull hpast hp (fun hmax => ?_) _ _ _).mpr ⟨fun _ => rfl, rfl, by omega⟩
      rw [hrow]
      exact hmax.symm
    case neg =>
      rw [if_neg hrow]
      by_cases hlimit : s.rs.maxRows ≠ 0 ∧ s.rs.row = s.rs.maxRows
      case pos =>
        rw [if_pos hlimit]
        exact iff_of_true h fun _ _ hno => absurd hlimit.2 (hno hlimit.1)
      case neg =>
        rw [if_neg hlimit]
        by_cases hp : s.pointer = .open_
        case neg =>
          have hstuck : (onward a).wp (fun _ => Holds) Holds s ↔ Holds s := by
            unfold onward
            rw [Prog.wp_bind, wp_safeRun, if_neg hp]
          exact iff_of_true (hstuck.mpr h) fun _ _ _ hno => absurd hno hp
        case pos =>
          have hn : 0 < n := by
            have := hd.row
            omega
          have hmax : s.rs.maxRows ≠ 0 → s.rs.row ≠ s.rs.maxRows := fun hmax hno => hlimit ⟨hmax, hno⟩
          rw [onward_iff h hd hopen hfull hpast hp hmax hn]
          exact ⟨fun hok _ _ _ _ => hok, fun hok => hok ⟨hopen, hfull, hpast⟩ hrow hmax hp⟩

/-! ## Every call -/

theorem wp_drop {p : Op α} {Q : Stmt → Prop} : (drop p).wp (fun _ => Q) E s ↔ p.wp (fun _ => Q) E s := by
  rw [drop, Prog.wp_bind]
  rfl

/-- A call keeps the result set right when it is careful, and only then. -/
theorem kept_iff (h : Holds s) (l : Label) : (program s.kind l).wp (fun _ => Holds) Holds s ↔ Careful s l := by
  cases l with
  | execute w =>
    simp only [program, Careful]
    cases s.kind with
    | plain => exact wp_drop.trans (kept_plain_execute h)
    | prepared n => exact wp_drop.trans (kept_prepared_execute h)
  | executeQuery w =>
    simp only [program, Careful]
    cases s.kind with
    | plain => exact wp_drop.trans (kept_plain_executeQuery h)
    | prepared n => exact wp_drop.trans (kept_prepared_executeQuery h)
  | executeQueryThen closeStmt w =>
    have h' : Holds (s.mapRs fun rs => { rs with closeStmt }) :=
      h.flagged s.exhaustedResults s.closed s.closeOnCompletion closeStmt
    simp only [program, Careful]
    rw [Prog.wp_bind, Prog.wp_modify]
    cases s.kind with
    | plain => exact wp_drop.trans (kept_plain_executeQuery h')
    | prepared n => exact iff_of_true h' trivial
  | executeLargeUpdate w =>
    simp only [program, Careful]
    cases s.kind with
    | plain => exact iff_of_true (kept_plain_executeLargeUpdate s h) trivial
    | prepared n => exact kept_prepared_executeLargeUpdate h
  | executeLargeBatch w rows =>
    simp only [program, Careful]
    cases s.kind with
    | plain => exact iff_of_true (kept_plain_executeLargeBatch s h) trivial
    | prepared n => exact kept_prepared_executeLargeBatch h
  | addBatch =>
    simp only [program, Careful]
    cases s.kind with
    | plain => exact iff_of_true (internalClose_keeps s h) trivial
    | prepared n => exact iff_of_true h trivial
  | getResultSet w => exact iff_of_true (wp_drop.mpr (getResultSet_keeps s h)) trivial
  | getMoreResults => exact iff_of_true (kept_getMoreResults s h) trivial
  | setLargeMaxRows max => exact kept_setLargeMaxRows h
  | closeOnCompletion => exact iff_of_true (kept_closeOnCompletion s h) trivial
  | next a => exact wp_drop.trans (kept_next h)
  | closeResultSet => exact kept_rsClose h
  | close => exact iff_of_true (kept_close s h) trivial
  | closeDB => exact kept_closeDB h

end

/-! ## Runs -/

theorem holds_step {s s' : Stmt} {l : Label} (h : Holds s) (hl : Careful s l)
    (hstep : step s l = some s') : Holds s' := by
  cases hstep
  exact Prog.wp_state ((kept_iff h l).mpr hl)

theorem holds_opened (kind : Kind) : Holds (opened kind) := by
  have hrests : Rests (opened kind) := by cases kind <;> exact ⟨rfl, rfl, rfl, Int.le_refl 0⟩
  refine hrests.holds_iff.mpr ⟨fun _ => ?_, fun hw => ?_⟩
  · cases kind <;> rfl
  · cases kind <;> cases hw

/-- The result set has gone to the first rows of one execution, each once and in order, and past
the last of them only where the execution ended, in exactly the runs whose calls are careful. -/
theorem result_set_run_iff (kind : Kind) (ls : List Label) :
    EveryState step Holds (opened kind) ls ↔ EveryStep step Careful (opened kind) ls := by
  refine ⟨fun h => ?_, fun h => ?_⟩
  · refine everyStep_of_everyState (fun s l s' => holds_step) (fun s l hs hnext => ?_) (holds_opened kind) h
    exact (kept_iff hs l).mp (Prog.wp_of_state (hnext _ rfl))
  · exact everyState_of_invariant (fun s l s' => holds_step) (fun _ => id) (holds_opened kind) h

end ResultSets

end Sqlol

/-
A JDBC statement and its one result set (`JDBC3Statement`, `JDBC3PreparedStatement`,
`CoreResultSet`, `JDBC3ResultSet`) over an SQLite statement.

`execute` takes the first step and leaves `resultsWaiting`; `getResultSet` opens the result
set on what waits; the first `next` goes to the row that is there already, each other one
steps. Neither asks where SQLite's statement is: they go by their own fields.

SQLite begins a new execution when it is stepped and none is running, be it that the last
one came to its end or that it failed. `sqlite3_reset` and `sqlite3_finalize` are taken not to
throw.
-/
import Sqlol.Int32
import Sqlol.Prog
import Sqlol.Runs

namespace Sqlol

namespace ResultSets

/-- A step's code: `busy` is any of BUSY, LOCKED, MISUSE and CONSTRAINT, `error` any other error.
At `crash` the call itself throws. -/
inductive Answer where
  | row
  | done
  | busy
  | error
  | crash
  deriving DecidableEq

/-- Where SQLite's statement is: in which execution, with how many rows behind it. One that fails again stays
where it failed first. -/
inductive Cursor where
  | reset
  | running (e n : Nat)
  | done (e n : Nat)
  | failed (e n : Nat)
  deriving DecidableEq

/-- `CoreStatement.pointer`. -/
inductive Pointer where
  | null
  | open_
  | closed
  deriving DecidableEq

/-- The two kinds of statement; a prepared one knows its columns. -/
inductive Kind where
  | plain
  | prepared (columnCount : Nat)

/-- The fields of `CoreResultSet` and `JDBC3ResultSet`. -/
structure ResultSet where
  open_ : Bool := false
  emptyResultSet : Bool := false
  pastLastRow : Bool := false
  closeStmt : Bool := false
  row : Int := 0
  maxRows : Int := 0
  /-- `colsMeta != null`. -/
  colsMeta : Bool := false

/-- The last two are notes that no call reads: the rows the result set went to, as SQLite's statement had them,
and the end of an execution that took it past its last row. -/
structure Stmt where
  kind : Kind := .plain
  dbOpen : Bool := true
  pointer : Pointer := .null
  cursor : Cursor := .reset
  executions : Nat := 0
  resultsWaiting : Bool := false
  exhaustedResults : Bool := false
  closed : Bool := false
  closeOnCompletion : Bool := false
  rs : ResultSet := {}
  delivered : List (Option (Nat × Nat)) := []
  endedAt : Option (Nat × Nat) := none

/-- How what a call asks of others turns out. -/
structure Weather where
  /-- `ExtendedCommand.parse`, and whether the command returns. -/
  ext : Option Bool := none
  enforced : Bool := true
  timeoutSet : Bool := true
  timeoutReset : Bool := true
  prepared : Bool := true
  bound : Bool := true
  answer : Answer := .done
  /-- `ensureAutoCommit`. -/
  settled : Bool := true
  /-- `column_count`, when it returns. -/
  columns : Option Nat := some 1
  names : Bool := true
  /-- `updateGeneratedKeys`. -/
  keys : Bool := true
  changes : Bool := true

/-- A method of the statement or of its result set. -/
abbrev Op := Prog Stmt

/-! ## SQLite's statement -/

namespace Stmt

/-- The execution a step belongs to. -/
def execution (s : Stmt) : Nat × Nat := match s.cursor with
  | .running e n => (e, n)
  | _ => (s.executions, 0)

/-- Where a step leads, by its answer. -/
def moved (a : Answer) (s : Stmt) : Cursor := match a, s.cursor with
  | .row, _ => .running s.execution.1 (s.execution.2 + 1)
  | .done, _ => .done s.execution.1 s.execution.2
  | _, .failed e n => .failed e n
  | _, _ => .failed s.execution.1 s.execution.2

/-- Behind a step. -/
def stepped (a : Answer) (s : Stmt) : Stmt :=
  { s with cursor := s.moved a, executions := max s.executions (s.execution.1 + 1) }

/-- The row that the getters read. -/
def shown (s : Stmt) : Option (Nat × Nat) := match s.pointer, s.cursor with
  | .open_, .running e n => some (e, n)
  | _, _ => none

/-- The end of an execution. -/
def end_ (s : Stmt) : Option (Nat × Nat) := match s.cursor with
  | .done e n => some (e, n)
  | _ => none

/-- The result set is changed. -/
def mapRs (f : ResultSet → ResultSet) (s : Stmt) : Stmt := { s with rs := f s.rs }

end Stmt

/-- `sqlite3_step`. -/
def step_ (a : Answer) : Op Unit := do
  Prog.modify (Stmt.stepped a)
  Prog.throwIf (a = .crash)

/-- `pointer.safeRun` and `checkOpen`. -/
def safeRun {α : Type} (p : Op α) : Op α := do
  match (← Prog.get).pointer with
  | .open_ => p
  | _ => Prog.throw

/-- `sqlite3_reset`. -/
def reset : Op Unit := safeRun (Prog.modify fun s => { s with cursor := .reset })

/-- `pointer.close()`. -/
def closePointer : Op Unit := do
  match (← Prog.get).pointer with
  | .null => Prog.throw
  | _ => Prog.modify fun s => { s with pointer := .closed }

/-! ## Closing -/

/-- What `close` clears first of all. -/
def ResultSet.cleared (rs : ResultSet) : ResultSet :=
  { rs with colsMeta := false, row := 0, pastLastRow := false, emptyResultSet := false }

/-- `CoreResultSet.close`; `stat` closes the statement. -/
def coreClose (stat : Op Unit) : Op Unit := do
  Prog.modify (Stmt.mapRs ResultSet.cleared)
  let s ← Prog.get
  match s.pointer with
  | .null => Prog.throw
  | .closed => pure ()
  | .open_ =>
    if s.rs.open_ || s.rs.closeStmt then do
      reset
      Prog.onlyIf s.rs.closeStmt do
        Prog.modify (Stmt.mapRs fun rs => { rs with closeStmt := false })
        stat
      Prog.modify (Stmt.mapRs fun rs => { rs with open_ := false })
    else pure ()

/-- `JDBC4ResultSet.close`. -/
def jdbcClose (stat : Op Unit) : Op Unit := do
  let wasOpen := (← Prog.get).rs.open_
  coreClose stat
  let s ← Prog.get
  Prog.onlyIf (wasOpen && s.closeOnCompletion && !s.closed) stat

/-- `CoreStatement.internalClose`. -/
def internalCloseWith (rsClose : Op Unit) : Op Unit := do
  match (← Prog.get).pointer with
  | .open_ => do
    Prog.throwIf !(← Prog.get).dbOpen
    rsClose
    closePointer
  | _ => pure ()

/-- `JDBC4Statement.close`. -/
def closeWith (rsClose : Op Unit) : Op Unit := do
  internalCloseWith rsClose
  Prog.modify fun s => { s with closed := true }

/-- The result set's `close` and the statement's call each other. -/
def rsCloseIn : Nat → Op Unit
  | 0 => Prog.throw
  | n + 1 => jdbcClose (closeWith (rsCloseIn n))

/-- No call goes deeper (`rsCloseIn_eq`). -/
def rsClose : Op Unit := rsCloseIn 3

/-- `CoreStatement.internalClose`. -/
def internalClose : Op Unit := internalCloseWith rsClose

/-- `JDBC4Statement.close`. -/
def close : Op Unit := closeWith rsClose

/-! ## The database -/

/-- `DB.prepare(CoreStatement)`. -/
def dbPrepare (w : Weather) : Op Unit := do
  let s ← Prog.get
  Prog.onlyIf (s.pointer ≠ .null) closePointer
  Prog.throwIf (!s.dbOpen || !w.prepared)
  Prog.modify fun s => { s with pointer := .open_, cursor := .reset }

/-- `DB.execute(CoreStatement, Object[])`: whether a row is there. -/
def dbExecute (w : Weather) : Op Bool := do
  safeRun do
    Prog.throwIf !w.bound
    step_ w.answer
    if w.answer = .done then reset
  match w.answer with
  | .done => do
    Prog.throwIf !w.settled
    pure false
  | .row => pure true
  | .busy | .crash => Prog.throw
  | .error => do
    closePointer
    Prog.throw

/-- `if (!pointer.isClosed()) reset`. -/
def resetOpen : Op Unit := do
  if (← Prog.get).pointer ≠ .closed then reset else pure ()

/-- `DB.executeUpdate`. -/
def dbExecuteUpdate (w : Weather) : Op Unit := do
  Prog.tryFinally
    (do
      let row ← dbExecute w
      Prog.throwIf row)
    resetOpen
  Prog.throwIf !w.changes

/-- The rows of `DB.executeBatch`. -/
def batchRows : List Weather → Op Unit
  | [] => pure ()
  | w :: ws => do
    reset
    Prog.throwIf !w.bound
    step_ w.answer
    if w.answer ≠ .done then do
      reset
      Prog.throw
    else do
      Prog.throwIf !w.changes
      batchRows ws

/-- `DB.executeBatch`; `bound` stands for `bind_parameter_count` here. -/
def dbExecuteBatch (w : Weather) (rows : List Weather) : Op Unit := safeRun do
  Prog.throwIf !w.bound
  Prog.tryFinally (batchRows rows) (Prog.throwIf !w.settled)
  reset

/-! ## Statements -/

/-- `JDBC3Statement.withConnectionTimeout`. -/
def withConnectionTimeout {α : Type} (w : Weather) (p : Op α) : Op α := do
  Prog.throwIf !w.timeoutSet
  Prog.tryFinally p (Prog.throwIf !w.timeoutReset)

/-- `sqlite3_column_count`. -/
def columnCount (w : Weather) : Op Nat := safeRun (match w.columns with
  | none => Prog.throw
  | some n => pure n)

/-- `CoreStatement.exec()`. -/
def exec (w : Weather) : Op Bool := do
  Prog.throwIf (← Prog.get).rs.open_
  Prog.throwIf !w.enforced
  let rc ← Prog.onThrow (dbExecute w) (do
    Prog.modify fun s => { s with resultsWaiting := false }
    closePointer)
  Prog.modify fun s => { s with resultsWaiting := rc }
  pure ((← columnCount w) ≠ 0)

/-- Whether there is a result set. -/
def getResultSet (w : Weather) : Op Bool := safeRun do
  let s ← Prog.get
  if s.exhaustedResults then pure false
  else do
    Prog.throwIf s.rs.open_
    if (← columnCount w) = 0 then pure false
    else do
      Prog.throwIf (!s.rs.colsMeta && !w.names)
      Prog.modify fun s => { s with
        rs := { s.rs with colsMeta := true, emptyResultSet := !s.resultsWaiting, open_ := true }
        resultsWaiting := false
        delivered := [] }
      pure true

namespace Plain

/-- `JDBC3Statement.execute`. -/
def execute (w : Weather) : Op Bool := do
  internalClose
  withConnectionTimeout w (match w.ext with
    | some returns => do
      Prog.throwIf !returns
      pure false
    | none => do
      dbPrepare w
      let result ← exec w
      Prog.throwIf !w.keys
      Prog.throwIf !w.changes
      Prog.modify fun s => { s with exhaustedResults := false }
      pure result)

/-- `JDBC3Statement.executeQuery`. -/
def executeQuery (w : Weather) : Op Bool := do
  internalClose
  withConnectionTimeout w do
    dbPrepare w
    if ← exec w then do
      Prog.modify fun s => { s with exhaustedResults := false }
      getResultSet w
    else do
      internalClose
      Prog.throw

/-- `_exec` has statements of its own. -/
def executeLargeUpdate (w : Weather) : Op Unit := do
  internalClose
  withConnectionTimeout w (match w.ext with
    | some returns => Prog.throwIf !returns
    | none => Prog.tryFinally (Prog.throwIf !w.changes) internalClose)

/-- The entries one by one, each on a pointer of its own. -/
def batchEntries : List Weather → Op Unit
  | [] => pure ()
  | w :: ws => do
    Prog.tryFinally
      (do
        dbPrepare w
        dbExecuteUpdate w)
      (do
        Prog.onlyIf ((← Prog.get).pointer ≠ .null) closePointer)
    batchEntries ws

/-- Closing an open pointer drops the batch. -/
def executeLargeBatch (rows : List Weather) : Op Unit := do
  let pointer := (← Prog.get).pointer
  internalClose
  if pointer = .open_ then pure () else batchEntries rows

end Plain

namespace Prepared

/-- What the three ways to execute begin with. -/
def start (w : Weather) : Op Unit := do
  rsClose
  reset
  Prog.modify fun s => { s with exhaustedResults := false }
  Prog.throwIf !w.enforced

/-- The execution itself; `keys` are made by `execute` only. -/
def run (keys : Bool) (w : Weather) : Op Unit := Prog.onThrow
  (do
    let rc ← dbExecute w
    Prog.modify fun s => { s with resultsWaiting := rc }
    Prog.throwIf !keys)
  resetOpen

/-- `JDBC3PreparedStatement.execute`. -/
def execute (columnCount : Nat) (w : Weather) : Op Bool := safeRun do
  start w
  withConnectionTimeout w do
    run w.keys w
    Prog.throwIf !w.changes
    pure (columnCount ≠ 0)

/-- `JDBC3PreparedStatement.executeQuery`. -/
def executeQuery (columnCount : Nat) (w : Weather) : Op Bool := safeRun do
  Prog.throwIf (columnCount = 0)
  start w
  withConnectionTimeout w do
    run true w
    getResultSet w

/-- `JDBC3PreparedStatement.executeLargeUpdate`. -/
def executeLargeUpdate (columnCount : Nat) (w : Weather) : Op Unit := safeRun do
  Prog.throwIf (columnCount ≠ 0)
  start w
  withConnectionTimeout w do
    dbExecuteUpdate w
    Prog.throwIf !w.keys

/-- Nothing of the result set is looked at. -/
def executeLargeBatch (w : Weather) (rows : List Weather) : Op Unit :=
  if rows.isEmpty then pure ()
  else do
    Prog.throwIf !w.enforced
    withConnectionTimeout w (dbExecuteBatch w rows)

end Prepared

/-! ## The result set -/

/-- The row that `next` went to is noted. -/
def arrive : Op Bool := do
  Prog.modify fun s => { s with
    rs := { s.rs with row := i32 (s.rs.row + 1) }
    delivered := s.delivered ++ [s.shown] }
  pure true

/-- `JDBC3ResultSet.next`. -/
def next (a : Answer) : Op Bool := do
  let rs := (← Prog.get).rs
  if !rs.open_ || rs.emptyResultSet || rs.pastLastRow then pure false
  else if rs.row = 0 then arrive
  else if rs.maxRows ≠ 0 ∧ rs.row = rs.maxRows then pure false
  else do
    safeRun (step_ a)
    match a with
    | .done => do
      Prog.modify fun s => { s with rs := { s.rs with pastLastRow := true }, endedAt := s.end_ }
      pure false
    | .row => arrive
    | .busy | .error | .crash => Prog.throw

/-- `JDBC3Statement.getMoreResults`. -/
def getMoreResults : Op Unit := safeRun do
  rsClose
  Prog.modify fun s => { s with exhaustedResults := true }

/-- `JDBC3Statement.setLargeMaxRows`. -/
def setLargeMaxRows (max : Int) : Op Unit := do
  Prog.throwIf (max < 0)
  Prog.modify (Stmt.mapRs fun rs => { rs with maxRows := max })

/-- `JDBC4Statement.closeOnCompletion`. -/
def closeOnCompletion : Op Unit := do
  Prog.throwIf (← Prog.get).closed
  Prog.modify fun s => { s with closeOnCompletion := true }

/-- `DB.close` closes the pointers. -/
def closeDB : Op Unit := Prog.modify fun s => { s with
  dbOpen := false
  pointer := if s.pointer = .open_ then .closed else s.pointer }

/-- The calls, with what happens to them. -/
inductive Label where
  | execute (w : Weather)
  | executeQuery (w : Weather)
  /-- `executeQuery(sql, closeStmt)`. -/
  | executeQueryThen (closeStmt : Bool) (w : Weather)
  | executeLargeUpdate (w : Weather)
  /-- The weather of the call, and that of each entry. -/
  | executeLargeBatch (w : Weather) (rows : List Weather)
  | addBatch
  | getResultSet (w : Weather)
  | getMoreResults
  | setLargeMaxRows (max : Int)
  | closeOnCompletion
  | next (a : Answer)
  | closeResultSet
  | close
  | closeDB

/-- The result is the caller's. -/
def drop {α : Type} (p : Op α) : Op Unit := do
  let _ ← p
  pure ()

/-- A prepared statement has no use for the calls with a text; `addBatch` of its own is not here. -/
def program (kind : Kind) : Label → Op Unit
  | .execute w => match kind with
    | .plain => drop (Plain.execute w)
    | .prepared n => drop (Prepared.execute n w)
  | .executeQuery w => match kind with
    | .plain => drop (Plain.executeQuery w)
    | .prepared n => drop (Prepared.executeQuery n w)
  | .executeQueryThen closeStmt w => do
    Prog.modify (Stmt.mapRs fun rs => { rs with closeStmt })
    match kind with
    | .plain => drop (Plain.executeQuery w)
    | .prepared _ => Prog.throw
  | .executeLargeUpdate w => match kind with
    | .plain => Plain.executeLargeUpdate w
    | .prepared n => Prepared.executeLargeUpdate n w
  | .executeLargeBatch w rows => match kind with
    | .plain => Plain.executeLargeBatch rows
    | .prepared _ => Prepared.executeLargeBatch w rows
  | .addBatch => match kind with
    | .plain => internalClose
    | .prepared _ => Prog.throw
  | .getResultSet w => drop (getResultSet w)
  | .getMoreResults => getMoreResults
  | .setLargeMaxRows max => setLargeMaxRows max
  | .closeOnCompletion => closeOnCompletion
  | .next a => drop (next a)
  | .closeResultSet => rsClose
  | .close => close
  | .closeDB => closeDB

/-- What a call leaves behind, whether it returns or throws. -/
def step (s : Stmt) (l : Label) : Option Stmt := some (program s.kind l s).2

/-- A statement just made. -/
def opened : Kind → Stmt
  | .plain => {}
  | .prepared n => { kind := .prepared n, pointer := .open_, rs := { colsMeta := true } }

end ResultSets

end Sqlol

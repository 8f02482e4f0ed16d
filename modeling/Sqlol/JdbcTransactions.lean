/-
Transactions of a JDBC connection (`SQLiteConnection`, `JDBC3Connection`, `DB.exec`,
`DB.ensureAutoCommit`) over those of SQLite.

The connection keeps a flag, `autoCommit`, and SQLite whether a transaction is open; the
flag is set before the statement that is to make it true. Behind every statement of an
auto-commit connection `ensureAutoCommit` begins and commits once more, and takes a
`begin` that fails for a sign that a transaction is open.

Behind an insert comes a query of its own, for the generated keys: it may fail, and it has
its own `tryEnforceTransactionMode`.

SQLite's part is what `OP_AutoCommit`, `OP_Savepoint`, `OP_Transaction` and
`PRAGMA query_only` do; the `Answer`s are what else may happen to a statement. Left out are
texts of several statements, extended commands (backup, restore), statements of the user's
that begin or end a transaction themselves or set `query_only`, writes that give rows
(`INSERT ... RETURNING`: SQLite commits them when the last row is read), the batches of
prepared statements, and exceptions of the guest's (a listener that throws).
-/
import Sqlol.Int32
import Sqlol.Prog
import Sqlol.Runs
import Sqlol.Savepoints

namespace Sqlol

namespace JdbcTransactions

open Savepoints (Work)

/-- `SQLiteConfig.TransactionMode`. -/
inductive TransactionMode where
  | deferred
  | immediate
  | exclusive
  deriving DecidableEq

/-- The write transaction of a mode other than DEFERRED is not had under `query_only`. Where the file is
read-only none is asked for. -/
def TransactionMode.refused (mode : TransactionMode) (queryOnly readOnlyFile : Bool) : Bool :=
  queryOnly && !readOnlyFile && mode != .deferred

/-- `openReadOnly` is the flag among the open mode's. -/
structure SQLiteConfig where
  explicitReadOnly : Bool := false
  openReadOnly : Bool := false
  getGeneratedKeys : Bool := true
  transactionMode : TransactionMode := .deferred

/-! ## SQLite -/

/-- A user's statement. A query has columns, and `rows` tells whether the first step gives a row; a write
has none, and `insert` tells whether its text is that of an INSERT or a REPLACE. -/
inductive Statement (ω : Type) where
  | query (rows : Bool)
  | write (w : ω) (insert : Bool)
  deriving DecidableEq

namespace Statement

variable {ω : Type}

/-- It changes the database. -/
def isWrite : Statement ω → Bool
  | .write _ _ => true
  | .query _ => false

/-- `INSERT_PATTERN.matcher(sql).find()`. -/
def isInsert : Statement ω → Bool
  | .write _ insert => insert
  | .query _ => false

/-- `column_count != 0`. -/
def hasColumns (s : Statement ω) : Bool := !s.isWrite

end Statement

/-- The statements a connection gives to SQLite. -/
inductive Sql (ω : Type) where
  | begin (mode : TransactionMode)
  | commit
  | rollback
  | savepoint (name : String)
  | release (name : String)
  | rollbackTo (name : String)
  | statement (s : Statement ω)

/-- Whether the first step gives a row. -/
def Sql.rows {ω : Type} : Sql ω → Bool
  | .statement (.query rows) => rows
  | _ => false

/-- What happens to a statement SQLite could run. -/
inductive Answer where
  | ok
  /-- It fails, BUSY or READONLY for one, and the transaction stays as it was. -/
  | refused
  /-- It fails, and SQLite rolls the transaction back. -/
  | lost
  deriving DecidableEq

/-- Of `sqlite3_step`. -/
inductive Rc where
  | row
  | done
  | error
  deriving DecidableEq

/-- `work` is there while a transaction is open (`!db->autoCommit`); `ran` notes the writes that have run,
whatever has become of them. -/
structure Engine (ω : Type) where
  ran : List ω := []
  committed : List ω := []
  work : Option (Work String ω) := none
  isTransactionSavepoint : Bool := false
  queryOnly : Bool := false
  /-- `sqlite3BtreeIsReadonly`. -/
  readOnlyFile : Bool := false
  deriving DecidableEq

namespace Engine

variable {ω : Type}

/-- The innermost savepoint of the name is the outermost of a transaction it began. -/
def closesTransaction (e : Engine ω) (w : Work String ω) (name : String) : Bool :=
  e.isTransactionSavepoint && (w.find name).length == 1

/-- The end of a transaction that leaves `writes` behind. -/
def finish (e : Engine ω) (writes : List ω) : Engine ω :=
  { e with committed := e.committed ++ writes, work := none, isTransactionSavepoint := false }

/-- The statement as it runs, unless SQLite will not have it here. -/
def apply (e : Engine ω) : Sql ω → Option (Engine ω)
  | .begin mode =>
    if e.work.isSome || mode.refused e.queryOnly e.readOnlyFile then none
    else some { e with work := some {}, isTransactionSavepoint := false }
  | .commit => e.work.map fun w => e.finish w.writes
  | .rollback => e.work.map fun _ => e.finish []
  | .savepoint name => match e.work with
    | none => some { e with work := some (Work.set {} name), isTransactionSavepoint := true }
    | some w => some { e with work := some (w.set name) }
  | .release name => e.work.bind fun w => (w.release name).map fun w' =>
    if e.closesTransaction w name then e.finish w.writes else { e with work := some w' }
  | .rollbackTo name => e.work.bind fun w => (w.rollbackTo name).map fun w' => { e with work := some w' }
  | .statement (.query _) => some e
  | .statement (.write x _) =>
    if e.queryOnly then none
    else match e.work with
      | none => some { e with ran := e.ran ++ [x], committed := e.committed ++ [x] }
      | some w => some { e with ran := e.ran ++ [x], work := some (w.write x) }

/-- `sqlite3_step`. -/
def step (e : Engine ω) (sql : Sql ω) (a : Answer) : Rc × Engine ω := match e.apply sql, a with
  | none, _ => (.error, e)
  | some e', .ok => (if sql.rows then .row else .done, e')
  | some _, .refused => (.error, e)
  | some _, .lost => (.error, e.finish [])

end Engine

/-! ## The connection -/

/-- A connection, with the database it has open. -/
structure Connection (ω : Type) where
  engine : Engine ω := {}
  autoCommit : Bool := true
  currentTransactionMode : Option TransactionMode
  firstStatementExecuted : Bool := false
  readOnly : Bool := false
  /-- The counter behind the savepoints' names. -/
  savePoint : Int := 0
  deriving DecidableEq

/-- What happens to a statement, and to the `begin` and `commit` behind it. -/
structure Weather where
  stmt : Answer := .ok
  prepared : Bool := true
  begin : Answer := .ok
  commit : Answer := .ok

/-- What happens to the statements of `tryEnforceTransactionMode`. -/
structure Enforced where
  pragma : Bool := true
  commit : Answer := .ok
  begin : Answer := .ok

/-- What happens to the query for the generated keys; `cleared` is whether those of the last insert close. -/
structure Keys where
  cleared : Bool := true
  en : Enforced := {}
  stmt : Answer := .ok

variable {ω : Type} (cfg : SQLiteConfig)

namespace Connection

/-- A method of the connection, or of one of its statements. -/
abbrev Op (ω : Type) := Prog (Connection ω)

/-- `DB.step`. -/
def step (sql : Sql ω) (a : Answer) : Op ω Rc := fun c =>
  (some (c.engine.step sql a).1, { c with engine := (c.engine.step sql a).2 })

/-- `throwex` comes before the `finally` block with its two resets. -/
def ensureAutoCommit (autoCommit : Bool) (w : Weather) : Op ω Unit :=
  if !autoCommit then pure ()
  else do
    Prog.throwIf !w.prepared
    if (← step (.begin .deferred) w.begin) ≠ .done then
      pure () -- assume we are in a transaction
    else do
      Prog.throwIf ((← step .commit w.commit) ≠ .done)

/-- `DB.exec`, and `DB.execute` of a statement: whether there is a row. -/
def exec (sql : Sql ω) (autoCommit : Bool) (w : Weather) : Op ω Bool := do
  match ← step sql w.stmt with
  | .done => do
    ensureAutoCommit autoCommit w
    pure false
  | .row => pure true
  | .error => Prog.throw

/-- The flag is set before the statement that is to make it true. -/
def setAutoCommit (ac : Bool) (w : Weather) : Op ω Unit := do
  if (← Prog.get).autoCommit = ac then pure ()
  else do
    Prog.modify fun c => { c with autoCommit := ac }
    if ac then do
      let _ ← exec .commit ac w
      Prog.modify fun c => { c with currentTransactionMode := none }
    else do
      let _ ← exec (.begin cfg.transactionMode) ac w
      Prog.modify fun c => { c with currentTransactionMode := some cfg.transactionMode }

/-- `commit` and `rollback`: the statement that ends the transaction, and a new one. -/
def endAndBegin (sql : Sql ω) (w₁ w₂ : Weather) : Op ω Unit := do
  Prog.throwIf (← Prog.get).autoCommit
  let _ ← exec sql (← Prog.get).autoCommit w₁
  let _ ← exec (.begin cfg.transactionMode) (← Prog.get).autoCommit w₂
  Prog.modify fun c =>
    { c with firstStatementExecuted := false, currentTransactionMode := some cfg.transactionMode }

/-- `SQLiteConnection.commit`. -/
def commit (w₁ w₂ : Weather) : Op ω Unit := endAndBegin cfg .commit w₁ w₂

/-- `SQLiteConnection.rollback()`. -/
def rollback (w₁ w₂ : Weather) : Op ω Unit := endAndBegin cfg .rollback w₁ w₂

/-- The user's names are taken to be plain identifiers. -/
def getSavepointName (id : Int) (name : Option String) : String := name.getD ("SQLITE_SAVEPOINT_" ++ toString id)

/-- A name with a minus in it is none. -/
def isIdentifier (id : Int) (name : Option String) : Bool := name.isSome || 0 ≤ id

/-- SQLite compares the names without regard to case. -/
def setSavepoint (name : Option String) (w : Weather) : Op ω Unit := do
  Prog.modify fun c => { c with autoCommit := false, savePoint := i32 (c.savePoint + 1) }
  let id := (← Prog.get).savePoint
  Prog.throwIf !isIdentifier id name
  let _ ← exec (.savepoint (getSavepointName id name).toLower) false w

/-- `JDBC3Connection.releaseSavepoint`. -/
def releaseSavepoint (name : String) (w : Weather) : Op ω Unit := do
  Prog.throwIf (← Prog.get).autoCommit
  let _ ← exec (.release name.toLower) false w

/-- `JDBC3Connection.rollback(Savepoint)`. -/
def rollbackTo (name : String) (w : Weather) : Op ω Unit := do
  Prog.throwIf (← Prog.get).autoCommit
  let _ ← exec (.rollbackTo name.toLower) (← Prog.get).autoCommit w

/-- `JDBC3Connection.isReadOnly`. -/
def isReadOnly (c : Connection ω) : Bool := cfg.openReadOnly || (cfg.explicitReadOnly && c.readOnly)

/-- `JDBC3Connection.setReadOnly`. -/
def setReadOnly (ro : Bool) : Op ω Unit := do
  let c ← Prog.get
  if cfg.explicitReadOnly then Prog.throwIf (ro ≠ c.readOnly && c.firstStatementExecuted)
  else Prog.throwIf (ro ≠ c.isReadOnly cfg)
  Prog.modify fun c => { c with readOnly := ro }

/-- `_exec` of the pragma; the return code is not looked at. -/
def setQueryOnly (on : Bool) (ok : Bool) : Op ω Unit :=
  Prog.onlyIf ok (Prog.modify fun c => { c with engine := { c.engine with queryOnly := on } })

/-- A read-only transaction is made so in SQLite, and one that may write is begun again as IMMEDIATE. -/
def tryEnforceTransactionMode (en : Enforced) : Op ω Unit := do
  let c ← Prog.get
  if cfg.explicitReadOnly && !c.autoCommit && c.currentTransactionMode.isSome then
    if c.isReadOnly cfg then setQueryOnly true en.pragma
    else if c.currentTransactionMode = some .deferred then
      if c.firstStatementExecuted then Prog.throw
      else do
        let _ ← step .commit en.commit
        setQueryOnly false en.pragma
        let _ ← step (.begin .immediate) en.begin
        Prog.modify fun c => { c with currentTransactionMode := some .immediate }
    else pure ()
  else pure ()

/-- The ways a statement comes to SQLite. -/
inductive Via where
  /-- `Statement.execute`. -/
  | statement
  /-- `Statement.executeQuery`. -/
  | query
  /-- `Statement.executeUpdate`, by `_exec`. -/
  | update
  /-- One entry of `Statement.executeBatch`, by `DB.executeUpdate`. -/
  | batch
  /-- `PreparedStatement.execute`. -/
  | prepared
  /-- `PreparedStatement.executeQuery`. -/
  | preparedQuery
  /-- `PreparedStatement.executeUpdate`, by `DB.executeUpdate`. -/
  | preparedUpdate
  deriving DecidableEq

/-- What a prepared statement looks at before it does anything. -/
def Via.refuses : Via → Statement ω → Bool
  | .preparedQuery, s => !s.hasColumns
  | .preparedUpdate, s => s.hasColumns
  | .statement, _ | .query, _ | .update, _ | .batch, _ | .prepared, _ => false

/-- `tryEnforceTransactionMode` comes before the statement. -/
def Via.enforces : Via → Bool
  | .statement | .query | .prepared | .preparedQuery | .preparedUpdate => true
  | .update | .batch => false

/-- `updateGeneratedKeys` comes behind the statement. -/
def Via.keys : Via → Bool
  | .statement | .update | .prepared | .preparedUpdate => true
  | .query | .batch | .preparedQuery => false

/-- The `finally` of `CoreStatement.exec`. -/
def notifyFirstStatementExecuted : Op ω Unit := Prog.modify fun c => { c with firstStatementExecuted := true }

/-- The statement itself, and what `ensureAutoCommit` does behind it. -/
def runStatement (via : Via) (s : Statement ω) (w : Weather) : Op ω Unit := do
  let autoCommit := (← Prog.get).autoCommit
  match via with
  | .statement | .query => do
    let _ ← Prog.tryFinally (exec (.statement s) autoCommit w) notifyFirstStatementExecuted
  | .prepared | .preparedQuery => do
    let _ ← exec (.statement s) autoCommit w
  | .update => do Prog.throwIf ((← step (.statement s) w.stmt) = .error)
  | .batch | .preparedUpdate => do Prog.throwIf (← exec (.statement s) autoCommit w)

/-- `SELECT last_insert_rowid()`, by `executeQuery` of a statement of its own. -/
def queryGeneratedKeys (k : Keys) : Op ω Unit := do
  tryEnforceTransactionMode cfg k.en
  let autoCommit := (← Prog.get).autoCommit
  let _ ← Prog.tryFinally (exec (.statement (.query true)) autoCommit { stmt := k.stmt }) notifyFirstStatementExecuted

/-- `CoreStatement.updateGeneratedKeys`. -/
def updateGeneratedKeys (s : Statement ω) (k : Keys) : Op ω Unit :=
  if cfg.getGeneratedKeys then do
    Prog.throwIf !k.cleared
    Prog.onlyIf s.isInsert (queryGeneratedKeys cfg k)
  else pure ()

/-- What comes behind the statement: `executeQuery` throws when there is no result set. -/
def behind (via : Via) (s : Statement ω) (k : Keys) : Op ω Unit :=
  if via.keys then updateGeneratedKeys cfg s k else Prog.throwIf (via == .query && !s.hasColumns)

/-- A statement by any of the ways. -/
def execute (via : Via) (s : Statement ω) (en : Enforced) (w : Weather) (k : Keys) : Op ω Unit := do
  Prog.throwIf (via.refuses s)
  Prog.onlyIf via.enforces (tryEnforceTransactionMode cfg en)
  runStatement via s w
  behind cfg via s k

end Connection

/-- The calls, with what happens to them. -/
inductive Label (ω : Type) where
  | setAutoCommit (ac : Bool) (w : Weather)
  | commit (w₁ w₂ : Weather)
  | rollback (w₁ w₂ : Weather)
  | setSavepoint (name : Option String) (w : Weather)
  | releaseSavepoint (name : String) (w : Weather)
  | rollbackTo (name : String) (w : Weather)
  | setReadOnly (ro : Bool)
  | execute (via : Connection.Via) (s : Statement ω) (en : Enforced) (w : Weather) (k : Keys)

/-- The method of a label. -/
def program : Label ω → Connection.Op ω Unit
  | .setAutoCommit ac w => Connection.setAutoCommit cfg ac w
  | .commit w₁ w₂ => Connection.commit cfg w₁ w₂
  | .rollback w₁ w₂ => Connection.rollback cfg w₁ w₂
  | .setSavepoint name w => Connection.setSavepoint name w
  | .releaseSavepoint name w => Connection.releaseSavepoint name w
  | .rollbackTo name w => Connection.rollbackTo name w
  | .setReadOnly ro => Connection.setReadOnly cfg ro
  | .execute via s en w k => Connection.execute cfg via s en w k

/-- A connection just opened. The file is read-only where the open mode says so, and where it cannot be written. -/
def opened (readOnlyFile : Bool) : Connection ω :=
  { engine := { readOnlyFile }, currentTransactionMode := some cfg.transactionMode }

end JdbcTransactions

end Sqlol

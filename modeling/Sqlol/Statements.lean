/-
The statements of a `Session`: the LRU cache, the user's statements, and how
`run`, `query`, `queryRows`, `prepareUser`, `runUser`, `runUserRows`, `finalizeUser` and
`close` treat them.

SQLite is a parameter. What it answers may depend on the time, the number of
calls made so far, in any way; what its own documentation says of a statement
is in the model: a bind counts from 1 and needs a reset statement, the first
step behind a reset compiles it again when the schema asks for it, a reset
keeps the bindings. Any call may throw, but for `sqlite3_finalize`,
`sqlite3_reset` and `sqlite3_clear_bindings`, which do not.

The state has notes beside it that no operation reads: the calls with a
handle (`log`), the steps that began an execution (`starts`), and the rows as
the statement showed them (`shown`).
-/
import Sqlol.Prog
import Sqlol.SessionRun
import Mathlib.Algebra.Order.BigOperators.Group.List
import Mathlib.Algebra.Order.Ring.Nat
import Mathlib.Logic.Function.Basic

namespace Sqlol

namespace Statements

/-- A value as SQLite stores it. -/
inductive Value where
  | null
  | long (n : Int)
  | double (x : Float)
  | text (s : String)
  | blob (b : List UInt8)
  deriving Inhabited

/-- The type codes of `sqlite3_column_type`. -/
def Value.type : Value → Nat
  | .long _ => 1
  | .double _ => 2
  | .text _ => 3
  | .blob _ => 4
  | .null => 5

/-- A parameter as the caller has it (`Any?`). -/
inductive Param where
  | null
  | long (n : Int)
  | int (n : Int)
  | boolean (b : Bool)
  | double (x : Float)
  | float (x : Float32)
  | string (s : String)
  | bytes (b : List UInt8)
  | other

/-- What `bindOne` binds; `sqlite3_bind_double` takes a NaN for NULL. -/
def Param.value : Param → Option Value
  | .null => some .null
  | .long n | .int n => some (.long n)
  | .boolean b => some (.long (if b then 1 else 0))
  | .double x => some (if x.isNaN then .null else .double x)
  | .float x => some (if x.isNaN then .null else .double x.toFloat)
  | .string s => some (.text s)
  | .bytes b => some (.blob b)
  | .other => none

/-- Where a statement's execution is. -/
inductive Cursor where
  | reset
  | running
  | ended
  deriving DecidableEq

/-- A statement in the guest. -/
structure Stmt where
  sql : String := ""
  /-- `sqlite3_bind_parameter_count`. -/
  params : Nat := 0
  bindings : Nat → Value := fun _ => .null
  cursor : Cursor := .reset
  /-- The columns in its compilation. -/
  names : List String := []
  row : List Value := []

/-- A row as it is handed out. -/
structure SqliteRow where
  columns : List String
  values : List Value

/-- Calls with a handle. -/
inductive Event where
  | prepared (h : Nat)
  | finalized (h : Nat)
  | used (h : Nat)
  deriving DecidableEq

/-- The handles prepared and not finalized, by a log with its latest entry first. -/
def live : List Event → List Nat
  | [] => []
  | .prepared h :: log => h :: live log
  | .finalized h :: log => (live log).erase h
  | .used _ :: log => live log

/-- A step that began an execution: the statement before it, the parameters of
the call it is part of, and when it was made. -/
structure Start where
  was : Stmt
  params : List Param
  time : Nat

/-- SQLite's statements, those the session has, and what was done with them. -/
structure State where
  time : Nat := 0
  store : Nat → Stmt := fun _ => {}
  /-- `stmts`, eldest first. -/
  cache : List (String × Nat) := []
  /-- `userStmts`. -/
  user : List Nat := []
  log : List Event := []
  starts : List Start := []
  shown : List SqliteRow := []
  /-- The parameters of the call under way. -/
  current : List Param := []

/-- SQLite's answers, and the JVM's. A handle is never 0 and never one in use. -/
structure Guest where
  throws : Nat → Bool
  prepareRc : Nat → Int
  hasStmt : String → Bool
  alloc : Nat → List Nat → Nat
  alloc_ne : ∀ t live, alloc t live ≠ 0
  alloc_fresh : ∀ t live, alloc t live ∉ live
  params : String → Nat
  /-- The columns a text has under the schema at a time. -/
  columns : Nat → String → List String
  bindRc : Nat → Int
  /-- What a failed bind leaves behind. -/
  badBind : Nat → Value
  stepRc : Nat → Int
  cell : Nat → Nat → Value
  execRc : Nat → Int
  changes : Nat → Int
  extendedErrcode : Nat → Int
  resetRc : Nat → Int
  decltype : Nat → Nat → Option String
  tableName : Nat → Nat → Option String
  /-- The flags of a column, unless `sqlite3_table_column_metadata` fails. -/
  metadata : Nat → Nat → Option (List Bool)
  asLong : Value → Int
  asDouble : Value → Float
  asText : Value → String
  asBlob : Value → List UInt8
  errmsg : Int → String
  /-- How many rows the heap holds beside the first. -/
  heapRows : Nat

/-- A method of the session. -/
abbrev Op := Prog State

/-! ## The guest's calls -/

variable (g : Guest)

/-- A call of the guest takes its time. -/
def tick : Op Nat := fun s => (some s.time, { s with time := s.time + 1 })

/-- A call that may throw, and when it is made. -/
def call : Op Nat := do
  let t ← tick
  Prog.throwIf (g.throws t)
  pure t

/-- The handle is given to the guest. -/
def use (h : Nat) : Op Unit := Prog.modify fun s => { s with log := .used h :: s.log }

/-- A statement is changed. -/
def setStmt (h : Nat) (f : Stmt → Stmt) : Op Unit :=
  Prog.modify fun s => { s with store := Function.update s.store h (f (s.store h)) }

/-- A statement is made, at an address nothing else has. -/
def allocate (t : Nat) (sql : String) : Op Nat := fun s =>
  let h := g.alloc t (live s.log)
  (some h, { s with
    store := Function.update s.store h { sql, params := g.params sql, names := g.columns t sql }
    log := .prepared h :: s.log })

/-- `sqlite3_prepare_v2` and the handle it left in `pp`: 0 with an error, and for a text without a statement. -/
def sqlite3PrepareV2 (sql : String) : Op (Int × Nat) := do
  let t ← call g
  if g.prepareRc t ≠ 0 then pure (g.prepareRc t, 0)
  else if g.hasStmt sql = false then pure (0, 0)
  else do
    let h ← allocate g t sql
    pure (0, h)

/-- `sqlite3_finalize`, noted. -/
def sqlite3Finalize (h : Nat) : Op Unit := Prog.modify fun s => { s with log := .finalized h :: s.log }

/-- `SQLITE_RANGE`. -/
def RANGE_RC : Int := 25

/-- `SQLITE_MISUSE`. -/
def MISUSE_RC : Int := 21

/-- `sqlite3_bind_*`, with the copy into the scratch buffer before it. -/
def sqlite3Bind (h i : Nat) (v : Value) : Op Int := do
  use h
  let t ← tick
  let st := (← Prog.get).store h
  if g.throws t then do
    setStmt h fun st => { st with bindings := Function.update st.bindings i (g.badBind t) }
    Prog.throw
  else if st.cursor ≠ .reset then pure MISUSE_RC
  else if i = 0 ∨ st.params < i then pure RANGE_RC
  else if g.bindRc t ≠ 0 then do
    setStmt h fun st => { st with bindings := Function.update st.bindings i (g.badBind t) }
    pure (g.bindRc t)
  else do
    setStmt h fun st => { st with bindings := Function.update st.bindings i v }
    pure 0

/-- `SQLITE_ROW`. -/
def ROW : Int := 100

/-- `SQLITE_DONE`. -/
def DONE : Int := 101

/-- The statement as the step at `t` compiles it, when that begins an execution. -/
def recompile (t : Nat) (st : Stmt) : Stmt :=
  if st.cursor = .running then st else { st with names := g.columns t st.sql }

/-- The note of a step at `t` on the statement `h`. -/
def noteStart (t h : Nat) (s : State) : State :=
  if (s.store h).cursor = .running then s
  else { s with starts := ⟨s.store h, s.current, t⟩ :: s.starts, shown := [] }

/-- `sqlite3_step`; what it answers depends on the time. -/
def sqlite3Step (h : Nat) : Op Int := do
  use h
  let t ← tick
  Prog.modify (noteStart t h)
  setStmt h (recompile g t)
  if g.throws t then do
    setStmt h fun st => { st with cursor := .ended, row := [] }
    Prog.throw
  else if g.stepRc t = ROW then do
    setStmt h fun st => { st with cursor := .running, row := (List.range st.names.length).map (g.cell t) }
    Prog.modify fun s => { s with shown := s.shown ++ [⟨(s.store h).names, (s.store h).row⟩] }
    pure ROW
  else do
    setStmt h fun st => { st with cursor := .ended, row := [] }
    pure (g.stepRc t)

/-- `sqlite3_reset`; its code is dropped. -/
def sqlite3Reset (h : Nat) : Op Unit := do
  use h
  setStmt h fun st => { st with cursor := .reset, row := [] }

/-- `sqlite3_clear_bindings`. -/
def sqlite3ClearBindings (h : Nat) : Op Unit := do
  use h
  setStmt h fun st => { st with bindings := fun _ => .null }

/-- A call that reads something off the statement. -/
def read {α : Type} (h : Nat) (f : Stmt → α) : Op α := do
  use h
  let _ ← call g
  let s ← Prog.get
  pure (f (s.store h))

/-- `sqlite3_bind_parameter_count`. -/
def sqlite3BindParameterCount (h : Nat) : Op Nat := read g h (·.params)

/-- `sqlite3_column_count`. -/
def sqlite3ColumnCount (h : Nat) : Op Nat := read g h (·.names.length)

/-- `sqlite3_column_name`. -/
def sqlite3ColumnName (h i : Nat) : Op String := read g h (·.names.getD i "")

/-- A column behind the last one is NULL. -/
def column (i : Nat) (st : Stmt) : Value := st.row.getD i .null

/-- `sqlite3_column_type`. -/
def sqlite3ColumnType (h i : Nat) : Op Nat := read g h fun st => (column i st).type

/-- `sqlite3_column_int64`. -/
def sqlite3ColumnInt64 (h i : Nat) : Op Int := read g h fun st => match column i st with
  | .long n => n
  | v => g.asLong v

/-- `sqlite3_column_double`. -/
def sqlite3ColumnDouble (h i : Nat) : Op Float := read g h fun st => match column i st with
  | .double x => x
  | v => g.asDouble v

/-- With `sqlite3_column_bytes` behind it. -/
def sqlite3ColumnText (h i : Nat) : Op String := read g h fun st => match column i st with
  | .text s => s
  | v => g.asText v

/-- `sqlite3_column_blob`. -/
def sqlite3ColumnBlob (h i : Nat) : Op (List UInt8) := read g h fun st => match column i st with
  | .blob b => b
  | v => g.asBlob v

/-- `Thread.sleep(5)`, which an interrupt ends. -/
def sleep : Op Unit := do
  let _ ← call g
  pure ()

/-! ## The session -/

/-- `stmts[sql]`: an access makes the entry the youngest. -/
def cacheGet (sql : String) : Op (Option Nat) := fun s =>
  match s.cache.find? fun e => e.1 = sql with
  | none => (some none, s)
  | some e => (some (some e.2), { s with cache := s.cache.erase e ++ [e] })

/-- `stmts[sql] = st`, with `removeEldestEntry` behind it. -/
def cachePut (sql : String) (h : Nat) : Op Unit := do
  Prog.modify fun s => { s with cache := s.cache ++ [(sql, h)] }
  match (← Prog.get).cache with
  | [] => pure ()
  | eldest :: rest =>
    if Session.STMT_CACHE < (eldest :: rest).length then do
      sqlite3Finalize eldest.2
      Prog.modify fun s => { s with cache := rest }
    else pure ()

/-- The statements one by one. -/
def finalizeAll : List Nat → Op Unit
  | [] => pure ()
  | h :: hs => do
    sqlite3Finalize h
    finalizeAll hs

/-- `Session.close`. -/
def close : Op Unit := do
  finalizeAll (← Prog.get).user
  Prog.modify fun s => { s with user := [] }
  finalizeAll ((← Prog.get).cache.map Prod.snd)
  Prog.modify fun s => { s with cache := [] }

/-- `bindOne`; a value of no known kind throws. -/
def bindOne (h i : Nat) (p : Param) : Op Int := match p.value with
  | none => Prog.throw
  | some v => sqlite3Bind g h i v

/-- The parameters from the `i`-th on. -/
def bindFrom (h : Nat) : Nat → List Param → Op Unit
  | _, [] => pure ()
  | i, p :: ps => do
    let rc ← bindOne g h i p
    Prog.throwIf (rc ≠ 0)
    bindFrom h (i + 1) ps

/-- `bindAll`: the parameters from 1 on. -/
def bindAll (h : Nat) (params : List Param) : Op Unit := bindFrom g h 1 params

/-- The message of a failing code. -/
def errmsg (rc : Int) : String := if rc = 0 then "" else g.errmsg rc

/-- The `try` block of `query` and `runUser`. -/
def scalar (h : Nat) (params : List Param) : Op SqlResult := do
  bindAll g h params
  let src ← sqlite3Step g h
  if src = ROW then do
    let long ← sqlite3ColumnInt64 g h 0
    let text ← sqlite3ColumnText g h 0
    pure ⟨0, long, text⟩
  else if src = DONE then pure ⟨0, 0, ""⟩
  else pure ⟨src, 0, errmsg g src⟩

/-- The `finally` block of `query` and `queryRows`. -/
def resetAndClear (h : Nat) (params : List Param) : Op Unit := do
  sqlite3Reset h
  if params.isEmpty then pure () else sqlite3ClearBindings h

/-- `Session.query`. -/
def query (sql : String) (params : List Param) : Op SqlResult := do
  match ← cacheGet sql with
  | some h => Prog.tryFinally (scalar g h params) (resetAndClear h params)
  | none => do
    let (prc, h) ← sqlite3PrepareV2 g sql
    if prc ≠ 0 ∨ h = 0 then pure ⟨prc, 0, errmsg g prc⟩
    else do
      cachePut sql h
      Prog.tryFinally (scalar g h params) (resetAndClear h params)

/-- `sqlite3_exec` of a text without parameters. -/
def exec (_sql : String) : Op Int := do
  let t ← call g
  pure (g.execRc t)

/-- How often `run` tries. -/
def ATTEMPTS : Nat := 200

/-- One attempt of `run`: texts with more than one statement go to `sqlite3_exec`. -/
def runOnce (sql : String) (isQuery : Bool) (params : List Param) : Op SqlResult :=
  let cacheable := isQuery || !params.isEmpty || !contains sql ';'
  if cacheable then query g sql params
  else do
    let rc ← exec g sql
    pure ⟨rc, 0, ""⟩

/-- `Session.run`. -/
def run (sql : String) (isQuery : Bool) (params : List Param) : Op SqlResult :=
  Prog.retry (sleep g)
    (do
      let r ← runOnce g sql isQuery params
      pure (if transient r.rc then none else some r))
    ATTEMPTS

/-- A value by its storage class. -/
def decode (h i : Nat) : Op Value := do
  match ← sqlite3ColumnType g h i with
  | 1 => do pure (.long (← sqlite3ColumnInt64 g h i))
  | 2 => do pure (.double (← sqlite3ColumnDouble g h i))
  | 3 => do pure (.text (← sqlite3ColumnText g h i))
  | 4 => do pure (.blob (← sqlite3ColumnBlob g h i))
  | _ => pure .null

/-- What one turn of the loop in `decodeRows` comes to. -/
inductive Turn where
  | row (r : SqliteRow)
  | done
  | busy

/-- One turn of the loop. -/
def turn (h : Nat) (cols : List String) : Op Turn := do
  let src ← sqlite3Step g h
  if src = ROW then do
    let values ← Prog.listFrom (decode g h) 0 cols.length
    pure (.row ⟨cols, values⟩)
  else if src = DONE then pure .done
  else if transient src then pure .busy
  else Prog.throw

/-- The loop: it ends with the rows, with none for BUSY and PROTOCOL, or with
an exception, the heap's when there are more rows than it holds. -/
def turns (h : Nat) (cols : List String) : Nat → List SqliteRow → Op (Option (List SqliteRow))
  | room, rows => do
    match ← turn g h cols with
    | .done => pure (some rows)
    | .busy => pure none
    | .row r => match room with
      | 0 => Prog.throw
      | room + 1 => turns h cols room (rows ++ [r])

/-- `decodeRows`: the names once, and then the rows. -/
def decodeRows (h : Nat) : Op (Option (List SqliteRow)) := do
  let n ← sqlite3ColumnCount g h
  let cols ← Prog.listFrom (sqlite3ColumnName g h) 0 n
  turns g h cols g.heapRows []

/-- The `try` block of `queryRows` and `runUserRows`. -/
def bindAndDecode (h : Nat) (params : List Param) : Op (Option (List SqliteRow)) := do
  bindAll g h params
  decodeRows g h

/-- One attempt of `queryRows`. -/
def queryRowsOnce (sql : String) (params : List Param) : Op (Option (List SqliteRow)) := do
  match ← cacheGet sql with
  | some h => Prog.tryFinally (bindAndDecode g h params) (resetAndClear h params)
  | none => do
    let (prc, h) ← sqlite3PrepareV2 g sql
    if transient prc then pure none
    else do
      Prog.throwIf (prc ≠ 0 ∨ h = 0)
      cachePut sql h
      Prog.tryFinally (bindAndDecode g h params) (resetAndClear h params)

/-- `Session.queryRows`. -/
def queryRows (sql : String) (params : List Param) : Op (List SqliteRow) :=
  Prog.retry (sleep g) (queryRowsOnce g sql params) ATTEMPTS

/-- The statement and its number of parameters. -/
def prepareUser (sql : String) : Op (Nat × Nat) := do
  let (prc, h) ← sqlite3PrepareV2 g sql
  Prog.throwIf (prc ≠ 0)
  Prog.throwIf (h = 0)
  Prog.modify fun s => { s with user := s.user ++ [h] }
  pure (h, ← sqlite3BindParameterCount g h)

/-- `Session.finalizeUser`: a handle that is not registered is nothing to it. -/
def finalizeUser (h : Nat) : Op Unit := do
  if h ∈ (← Prog.get).user then do
    Prog.modify fun s => { s with user := s.user.erase h }
    sqlite3Finalize h
  else pure ()

/-- `Session.runUser`. -/
def runUser (h : Nat) (params : List Param) : Op SqlResult := do
  Prog.throwIf (h ∉ (← Prog.get).user)
  Prog.retry (sleep g)
    (do
      let r ← Prog.tryFinally (scalar g h params) (sqlite3Reset h)
      pure (if transient r.rc then none else some r))
    ATTEMPTS

/-- `Session.runUserRows`. -/
def runUserRows (h : Nat) (params : List Param) : Op (List SqliteRow) := do
  Prog.throwIf (h ∉ (← Prog.get).user)
  Prog.retry (sleep g) (Prog.tryFinally (bindAndDecode g h params) (sqlite3Reset h)) ATTEMPTS

/-- SQLite when all goes well: nothing throws, every statement is done at its first step. -/
def quiet : Guest where
  throws _ := false
  prepareRc _ := 0
  hasStmt _ := true
  alloc _ live := live.sum + 1
  alloc_ne _ _ := Nat.succ_ne_zero _
  alloc_fresh _ _ hmem := absurd (List.le_sum_of_mem hmem) (by omega)
  params _ := 0
  columns _ _ := ["a"]
  bindRc _ := 0
  badBind _ := .null
  stepRc _ := DONE
  cell _ _ := .null
  execRc _ := 0
  changes _ := 0
  extendedErrcode _ := 0
  resetRc _ := 0
  decltype _ _ := none
  tableName _ _ := none
  metadata _ _ := none
  asLong _ := 0
  asDouble _ := 0
  asText _ := ""
  asBlob _ := []
  errmsg _ := ""
  heapRows := 8

end Statements

end Sqlol

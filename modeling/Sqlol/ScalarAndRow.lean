/-
`queryLong` and `queryText` beside `query(...)[0]`.

The scalar path converts in SQLite, `sqlite3_column_int64` and the bytes of
`sqlite3_column_text` up to the first zero; the row path decodes the storage
class with its length, and `SqliteRow.getLong` and `getText` convert, which is
meant as an approximation. `scalar_row_agree` says where they agree, for a
text of a session (the cached path) and for a user's statement (the prepared
one): with no row, on an INTEGER and a NULL, and on a TEXT that is plain. A
text like `12abc` is a number to SQLite only (`prefix_differs`).

The database is as it is, so a statement with its parameters has one outcome;
`Statements` has the rest of what may happen in between.
-/
import Sqlol.Prog
import Sqlol.SessionRun
import Sqlol.Statements
import Sqlol.TextToLong

namespace Sqlol

namespace ScalarAndRow

open Statements (Value Param SqliteRow ROW DONE RANGE_RC MISUSE_RC ATTEMPTS)

/-- A statement of SQLite's. -/
structure Stmt where
  sql : String := ""
  bindings : Nat → Value := fun _ => .null
  /-- The rows stepped to since the reset. -/
  pos : Nat := 0

/-- The rows of an execution, and the code behind the last one. -/
structure Outcome where
  columns : List String
  rows : List (List Value)
  rc : Int

/-- SQLite's statements, and those the session has. -/
structure State where
  store : Nat → Stmt := fun _ => {}
  /-- `stmts`, eldest first. -/
  cache : List (String × Nat) := []
  user : List Nat := []

/-- SQLite on its database. A statement with rows has columns. -/
structure Guest where
  prepare : State → String → Int × Nat
  params : String → Nat
  outcome : String → (Nat → Value) → Outcome
  wide : ∀ sql bindings, (outcome sql bindings).rows ≠ [] → (outcome sql bindings).columns ≠ []
  /-- The conversions of a REAL and a BLOB. -/
  asLong : Value → Int
  asText : Value → String
  errmsg : Int → String
  /-- `Double.toString`, and `String(bytes)`. -/
  doubleText : Float → String
  blobText : List UInt8 → String

/-- A method of the session. -/
abbrev Op := Prog State

variable (g : Guest)

/-! ## The guest's calls -/

/-- A statement is changed. -/
def setStmt (h : Nat) (f : Stmt → Stmt) : Op Unit :=
  Prog.modify fun s => { s with store := Function.update s.store h (f (s.store h)) }

/-- What an execution of the statement gives. -/
def Guest.of (st : Stmt) : Outcome := g.outcome st.sql st.bindings

/-- A failed one leaves 0 in `pp`. -/
def sqlite3PrepareV2 (sql : String) : Op (Int × Nat) := do
  let (rc, h) := g.prepare (← Prog.get) sql
  if rc ≠ 0 ∨ h = 0 then pure (rc, 0)
  else do
    setStmt h fun _ => { sql }
    pure (0, h)

/-- `sqlite3_bind_*`: not while the statement is in the middle of its rows. -/
def sqlite3Bind (h i : Nat) (v : Value) : Op Int := do
  let st := (← Prog.get).store h
  if st.pos ≠ 0 then pure MISUSE_RC
  else if i = 0 ∨ g.params st.sql < i then pure RANGE_RC
  else do
    setStmt h fun st => { st with bindings := Function.update st.bindings i v }
    pure 0

/-- The next row, or the end of the execution. -/
def sqlite3Step (h : Nat) : Op Int := do
  let st := (← Prog.get).store h
  if st.pos < (g.of st).rows.length then do
    setStmt h fun st => { st with pos := st.pos + 1 }
    pure ROW
  else do
    setStmt h fun st => { st with pos := 0 }
    pure (g.of st).rc

/-- `sqlite3_reset`. -/
def sqlite3Reset (h : Nat) : Op Unit := setStmt h fun st => { st with pos := 0 }

/-- `sqlite3_clear_bindings`. -/
def sqlite3ClearBindings (h : Nat) : Op Unit := setStmt h fun st => { st with bindings := fun _ => .null }

/-- The value of a column, NULL without a row. -/
def column (i : Nat) (st : Stmt) : Value :=
  if st.pos = 0 then .null else ((g.of st).rows.getD (st.pos - 1) []).getD i .null

/-- What is read of a statement. -/
def read {α : Type} (h : Nat) (f : Stmt → α) : Op α := do
  pure (f ((← Prog.get).store h))

/-- `sqlite3_column_int64` of a value. -/
def int64 : Value → Int
  | .long n => n
  | .null => 0
  | .text t => TextToLong.columnInt64 t.toList
  | v => g.asLong v

/-- `sqlite3_column_int64`. -/
def sqlite3ColumnInt64 (h i : Nat) : Op Int := read h fun st => int64 g (column g i st)

/-- What `sqlite3_column_text` points to, if it points to anything. -/
def pointee : Value → Option String
  | .null => none
  | .long n => some (toString n)
  | .text t => some t
  | v => some (g.asText v)

/-- `sqlite3_column_text`. -/
def sqlite3ColumnText (h i : Nat) : Op (Option String) := read h fun st => pointee g (column g i st)

/-- Up to the first zero byte, and in UTF-8 that is a NUL. At address 0 there is one. -/
def readCString : Option String → String
  | none => ""
  | some t => String.ofList (t.toList.takeWhile fun c => c ≠ '\x00')

/-! ## The session -/

/-- `stmts[sql]`, which is the youngest behind that. -/
def cacheGet (sql : String) : Op (Option Nat) := fun s =>
  match s.cache.find? fun e => e.1 = sql with
  | none => (some none, s)
  | some e => (some (some e.2), { s with cache := s.cache.erase e ++ [e] })

/-- With `removeEldestEntry`, whose `sqlite3_finalize` no later call of the session sees. -/
def cachePut (sql : String) (h : Nat) : Op Unit := Prog.modify fun s =>
  let cache := s.cache ++ [(sql, h)]
  { s with cache := if Session.STMT_CACHE < cache.length then cache.tail else cache }

/-- The parameters from `i` on. -/
def bindFrom (h : Nat) : Nat → List Param → Op Unit
  | _, [] => pure ()
  | i, p :: ps => match p.value with
    | none => Prog.throw
    | some v => do
      let rc ← sqlite3Bind g h i v
      Prog.throwIf (rc ≠ 0)
      bindFrom h (i + 1) ps

/-- `bindAll`. -/
def bindAll (h : Nat) (params : List Param) : Op Unit := bindFrom g h 1 params

/-- The message of a failing code. -/
def errmsg (rc : Int) : String := if rc = 0 then "" else g.errmsg rc

/-- The `when` of `query` and `runUser`. -/
def capture (h : Nat) : Op SqlResult := do
  let src ← sqlite3Step g h
  if src = ROW then do
    let long ← sqlite3ColumnInt64 g h 0
    let text ← sqlite3ColumnText g h 0
    pure ⟨0, long, readCString text⟩
  else if src = DONE then pure ⟨0, 0, ""⟩
  else pure ⟨src, 0, errmsg g src⟩

/-- `bindAll` and `capture`. -/
def scalar (h : Nat) (params : List Param) : Op SqlResult := do
  bindAll g h params
  capture g h

/-- The `finally` of a cached statement. -/
def resetAndClear (h : Nat) (params : List Param) : Op Unit := do
  sqlite3Reset h
  Prog.onlyIf (params ≠ []) (sqlite3ClearBindings h)

/-- `Session.query`. -/
def query (sql : String) (params : List Param) : Op SqlResult := do
  match ← cacheGet sql with
  | some h => Prog.tryFinally (scalar g h params) (resetAndClear h params)
  | none => do
    let (prc, h) ← sqlite3PrepareV2 g sql
    if prc ≠ 0 ∨ h = 0 then pure ⟨prc, 0, errmsg g prc⟩
    else do
      cachePut sql h
      Prog.tryFinally (scalar g h params) (resetAndClear h params)

/-- `run` with `isQuery`. -/
def run (sql : String) (params : List Param) : Op SqlResult :=
  Prog.retry (pure ())
    (do
      let r ← query g sql params
      pure (if transient r.rc then none else some r))
    ATTEMPTS

/-- `sqlite3_column_type`. -/
def sqlite3ColumnType (h i : Nat) : Op Nat := read h fun st => (column g i st).type

/-- `sqlite3_column_double`, of a column whose type is FLOAT. -/
def sqlite3ColumnDouble (h i : Nat) : Op Float := read h fun st => match column g i st with
  | .double x => x
  | _ => 0

/-- `readString` with the length of `sqlite3_column_bytes`. -/
def wholeText (h i : Nat) : Op String := read h fun st => (pointee g (column g i st)).getD ""

/-- `columnBlob`. -/
def wholeBlob (h i : Nat) : Op (List UInt8) := read h fun st => match column g i st with
  | .blob b => b
  | _ => []

/-- A value by its storage class. -/
def decode (h i : Nat) : Op Value := do
  match ← sqlite3ColumnType g h i with
  | 1 => do pure (.long (← sqlite3ColumnInt64 g h i))
  | 2 => do pure (.double (← sqlite3ColumnDouble g h i))
  | 3 => do pure (.text (← wholeText g h i))
  | 4 => do pure (.blob (← wholeBlob g h i))
  | _ => pure .null

/-- The loop of `decodeRows`, which ends behind the last row. -/
def turns (h : Nat) (cols : List String) : Nat → List SqliteRow → Op (Option (List SqliteRow))
  | 0, _ => Prog.throw
  | fuel + 1, rows => do
    let src ← sqlite3Step g h
    if src = ROW then do
      let values ← Prog.listFrom (decode g h) 0 cols.length
      turns h cols fuel (rows ++ [⟨cols, values⟩])
    else if src = DONE then pure (some rows)
    else if transient src then pure none
    else Prog.throw

/-- `decodeRows`. -/
def decodeRows (h : Nat) : Op (Option (List SqliteRow)) := do
  let cols ← read h fun st => (g.of st).columns
  let rows ← read h fun st => (g.of st).rows
  turns g h cols (rows.length + 1) []

/-- `bindAll` and `decodeRows`. -/
def bindAndDecode (h : Nat) (params : List Param) : Op (Option (List SqliteRow)) := do
  bindAll g h params
  decodeRows g h

/-- One attempt of `queryRows`. -/
def queryRowsOnce (sql : String) (params : List Param) : Op (Option (List SqliteRow)) := do
  match ← cacheGet sql with
  | some h => Prog.tryFinally (bindAndDecode g h params) (resetAndClear h params)
  | none => do
    let (prc, h) ← sqlite3PrepareV2 g sql
    if transient prc then pure none
    else do
      Prog.throwIf (prc ≠ 0 ∨ h = 0)
      cachePut sql h
      Prog.tryFinally (bindAndDecode g h params) (resetAndClear h params)

/-- `queryRows`. -/
def queryRows (sql : String) (params : List Param) : Op (List SqliteRow) :=
  Prog.retry (pure ()) (queryRowsOnce g sql params) ATTEMPTS

/-- `runUser`. -/
def runUser (h : Nat) (params : List Param) : Op SqlResult := do
  Prog.throwIf (h ∉ (← Prog.get).user)
  Prog.retry (pure ())
    (do
      let r ← Prog.tryFinally (scalar g h params) (sqlite3Reset h)
      pure (if transient r.rc then none else some r))
    ATTEMPTS

/-- `runUserRows`. -/
def runUserRows (h : Nat) (params : List Param) : Op (List SqliteRow) := do
  Prog.throwIf (h ∉ (← Prog.get).user)
  Prog.retry (pure ()) (Prog.tryFinally (bindAndDecode g h params) (sqlite3Reset h)) ATTEMPTS

/-! ## The caller -/

/-- A text on a connection, or a prepared statement. -/
inductive Path where
  | cached (sql : String)
  | prepared (h : Nat)

/-- The scalar result of either path. -/
def Path.result (path : Path) (params : List Param) : Op SqlResult := match path with
  | .cached sql => run g sql params
  | .prepared h => runUser g h params

/-- `queryLong`. -/
def queryLong (path : Path) (params : List Param) : Op Int := do
  let r ← path.result g params
  Prog.throwIf (r.rc ≠ 0)
  pure r.long

/-- `queryText`. -/
def queryText (path : Path) (params : List Param) : Op String := do
  let r ← path.result g params
  Prog.throwIf (r.rc ≠ 0)
  pure r.text

/-- `query` of either path. -/
def queryAll (path : Path) (params : List Param) : Op (List SqliteRow) := match path with
  | .cached sql => queryRows g sql params
  | .prepared h => runUserRows g h params

/-- `SqliteRow.getLong`. -/
def longOf : Value → Int
  | .null => 0
  | .long n => n
  | .double x => x.toInt64.toInt
  | .text t => TextToLong.getLong t.toList
  | .blob _ => 0

/-- `SqliteRow.getText`. -/
def textOf : Value → String
  | .null => ""
  | .text t => t
  | .blob b => g.blobText b
  | .long n => toString n
  | .double x => g.doubleText x

/-- `rows[0].getLong(0)`, 0 without a row; none where there is no such column. -/
def firstLong : List SqliteRow → Option Int
  | [] => some 0
  | r :: _ => r.values[0]?.map longOf

/-- The text of the first value, empty when there is no row. -/
def firstText : List SqliteRow → Option String
  | [] => some ""
  | r :: _ => r.values[0]?.map (textOf g)

/-! ## One execution -/

/-- The statement of a path. -/
def statement : Path → Op Nat
  | .cached sql => do
    match ← cacheGet sql with
    | some h => pure h
    | none => do
      let (prc, h) ← sqlite3PrepareV2 g sql
      Prog.throwIf (prc ≠ 0 ∨ h = 0)
      cachePut sql h
      pure h
  | .prepared h => do
    Prog.throwIf (h ∉ (← Prog.get).user)
    pure h

/-- The rows from where the statement is, and the code behind the last one. -/
def remaining (st : Stmt) : Outcome := { g.of st with rows := (g.of st).rows.drop st.pos }

/-- What the statement shows once it is bound. -/
def execution (path : Path) (params : List Param) (s : State) : Option Outcome :=
  match (do
    let h ← statement g path
    bindAll g h params
    pure h : Op Nat) s with
  | (some h, s₁) => some (remaining g (s₁.store h))
  | (none, _) => none

variable {g} {path : Path} {params : List Param} {s s₀ s₁ : State} {h : Nat} {o : Outcome}

theorem execution_some (ho : execution g path params s = some o) :
    ∃ h s₀ s₁, statement g path s = (some h, s₀) ∧ bindAll g h params s₀ = (some (), s₁) ∧
      o = remaining g (s₁.store h) := by
  unfold execution at ho
  rcases hst : statement g path s with ⟨_ | h, s₀⟩
  · rw [Prog.bind_of_none hst] at ho
    cases ho
  · rw [Prog.bind_of_some hst] at ho
    rcases hb : bindAll g h params s₀ with ⟨_ | u, s₁⟩
    · rw [Prog.bind_of_none hb] at ho
      cases ho
    · rw [Prog.bind_of_some hb] at ho
      cases ho
      exact ⟨h, s₀, s₁, rfl, hb, rfl⟩

theorem decode_eq {i : Nat} : decode g h i s = (some (column g i (s.store h)), s) := by
  have htype : sqlite3ColumnType g h i s = (some (column g i (s.store h)).type, s) := rfl
  unfold decode
  rw [Prog.bind_of_some htype]
  cases hc : column g i (s.store h) with
  | null => rfl
  | long n =>
    show (some (Value.long (int64 g (column g i (s.store h)))), s) = _
    rw [hc]
    rfl
  | double x =>
    show (some (Value.double (match column g i (s.store h) with | .double x => x | _ => 0)), s) = _
    rw [hc]
  | text t =>
    show (some (Value.text ((pointee g (column g i (s.store h))).getD "")), s) = _
    rw [hc]
    rfl
  | blob b =>
    show (some (Value.blob (match column g i (s.store h) with | .blob b => b | _ => [])), s) = _
    rw [hc]

/-- A row as `decodeRows` reads it. -/
def rowOf (cols : List String) (r : List Value) : SqliteRow :=
  ⟨cols, (List.range cols.length).map fun i => r.getD i .null⟩

/-- The statement behind a row. -/
def stepped (h : Nat) (s : State) : State :=
  { s with store := Function.update s.store h { s.store h with pos := (s.store h).pos + 1 } }

theorem stepped_stmt : (stepped h s).store h = { s.store h with pos := (s.store h).pos + 1 } :=
  Function.update_self ..

theorem step_row {r : List Value} {rest : List (List Value)} (hr : (remaining g (s.store h)).rows = r :: rest) :
    sqlite3Step g h s = (some ROW, stepped h s) ∧ (∀ i, column g i ((stepped h s).store h) = r.getD i .null) ∧
      remaining g ((stepped h s).store h) = { remaining g (s.store h) with rows := rest } := by
  have hdrop : (g.of (s.store h)).rows.drop (s.store h).pos = r :: rest := hr
  have hlt : (s.store h).pos < (g.of (s.store h)).rows.length := by
    by_contra hge
    rw [List.drop_eq_nil_of_le (by omega)] at hdrop
    cases hdrop
  have hget : (g.of (s.store h)).rows.getD (s.store h).pos [] = r := by
    rw [List.drop_eq_getElem_cons hlt] at hdrop
    rw [List.getD_eq_getElem?_getD, List.getElem?_eq_getElem hlt, Option.getD_some]
    exact (List.cons.inj hdrop).1
  have hrest : (g.of (s.store h)).rows.drop ((s.store h).pos + 1) = rest := by
    rw [List.drop_eq_getElem_cons hlt] at hdrop
    exact (List.cons.inj hdrop).2
  refine ⟨?_, fun i => ?_, ?_⟩
  · show (if (s.store h).pos < (g.of (s.store h)).rows.length then _ else _ : Op Int) s = _
    rw [if_pos hlt]
    rfl
  · rw [stepped_stmt, column, if_neg (Nat.succ_ne_zero _), Nat.add_sub_cancel]
    exact congrArg (fun r => List.getD r i Value.null) hget
  · rw [stepped_stmt]
    exact congrArg (fun rows => { g.of (s.store h) with rows := rows : Outcome }) hrest

theorem step_done (hr : (remaining g (s.store h)).rows = []) :
    ∃ s', sqlite3Step g h s = (some (remaining g (s.store h)).rc, s') := by
  have hge : ¬(s.store h).pos < (g.of (s.store h)).rows.length := by
    have := List.drop_eq_nil_iff.mp hr
    omega
  refine ⟨{ s with store := Function.update s.store h { s.store h with pos := 0 } }, ?_⟩
  show (if (s.store h).pos < (g.of (s.store h)).rows.length then _ else _ : Op Int) s = _
  rw [if_neg hge]
  rfl

/-- Of the first row SQLite's own conversions are taken. -/
theorem capture_row {r : List Value} {rest : List (List Value)} (hr : (remaining g (s.store h)).rows = r :: rest) :
    ∃ s', capture g h s =
      (some ⟨0, int64 g (r.getD 0 .null), readCString (pointee g (r.getD 0 .null))⟩, s') := by
  obtain ⟨hstep, hcol, -⟩ := step_row hr
  refine ⟨stepped h s, ?_⟩
  unfold capture
  rw [Prog.bind_of_some hstep, if_pos rfl, ← hcol 0]
  rfl

theorem capture_done (hr : (remaining g (s.store h)).rows = []) (hdone : (remaining g (s.store h)).rc = DONE) :
    ∃ s', capture g h s = (some ⟨0, 0, ""⟩, s') := by
  obtain ⟨s', hstep⟩ := step_done hr
  refine ⟨s', ?_⟩
  unfold capture
  rw [Prog.bind_of_some hstep, hdone, if_neg (by decide), if_pos rfl]
  rfl

theorem listFrom_decode {n i : Nat} :
    Prog.listFrom (decode g h) i n s = (some ((List.range' i n).map fun j => column g j (s.store h)), s) := by
  induction n generalizing i with
  | zero => rfl
  | succ n ih =>
    unfold Prog.listFrom
    rw [Prog.bind_of_some decode_eq, Prog.bind_of_some ih, List.range'_succ, List.map_cons]
    rfl

theorem turns_rows {cols : List String} {fuel : Nat} {rows : List (List Value)} {acc : List SqliteRow}
    (hr : (remaining g (s.store h)).rows = rows) (hdone : (remaining g (s.store h)).rc = DONE)
    (hfuel : rows.length < fuel) :
    ∃ s', turns g h cols fuel acc s = (some (some (acc ++ rows.map (rowOf cols))), s') := by
  induction fuel generalizing s rows acc with
  | zero => exact absurd hfuel (Nat.not_lt_zero _)
  | succ fuel ih =>
    unfold turns
    cases rows with
    | nil =>
      obtain ⟨s', hstep⟩ := step_done hr
      refine ⟨s', ?_⟩
      rw [Prog.bind_of_some hstep, hdone, if_neg (by decide), if_pos rfl, List.map_nil, List.append_nil]
      rfl
    | cons r rest =>
      obtain ⟨hstep, hcol, hrest⟩ := step_row hr
      have hvalues : (List.range' 0 cols.length).map (fun j => column g j ((stepped h s).store h)) =
          (List.range cols.length).map fun j => r.getD j .null := by
        rw [← List.range_eq_range']
        exact List.map_congr_left fun j _ => hcol j
      obtain ⟨s', hs'⟩ : ∃ s', turns g h cols fuel (acc ++ [rowOf cols r]) (stepped h s) =
          (some (some (acc ++ [rowOf cols r] ++ rest.map (rowOf cols))), s') :=
        ih (congrArg Outcome.rows hrest) ((congrArg Outcome.rc hrest).trans hdone) (by simpa using hfuel)
      refine ⟨s', ?_⟩
      rw [Prog.bind_of_some hstep, if_pos rfl, Prog.bind_of_some listFrom_decode, hvalues]
      rw [List.append_assoc] at hs'
      exact hs'

theorem decodeRows_rows (hdone : (remaining g (s.store h)).rc = DONE) :
    ∃ s', decodeRows g h s =
      (some (some ((remaining g (s.store h)).rows.map (rowOf (remaining g (s.store h)).columns))), s') := by
  refine turns_rows rfl hdone ?_
  simp only [remaining, List.length_drop]
  omega

/-! ## The two paths -/

theorem resetAndClear_returns : (resetAndClear h params s).1 = some () := by
  cases params <;> rfl

/-- The cached statement, run in one way or the other. -/
theorem cached_runs {sql : String} (hst : statement g (.cached sql) s = (some h, s₀)) :
    query g sql params s = Prog.tryFinally (scalar g h params) (resetAndClear h params) s₀ ∧
      queryRowsOnce g sql params s = Prog.tryFinally (bindAndDecode g h params) (resetAndClear h params) s₀ := by
  simp only [statement, query, queryRowsOnce] at hst ⊢
  rcases hc : cacheGet sql s with ⟨_ | _ | h', s'⟩
  · rw [Prog.bind_of_none hc] at hst
    cases hst
  · rw [Prog.bind_of_some hc] at hst
    rw [Prog.bind_of_some hc, Prog.bind_of_some hc]
    dsimp only at hst ⊢
    rcases hp : sqlite3PrepareV2 g sql s' with ⟨_ | ⟨prc, h'⟩, s''⟩
    · rw [Prog.bind_of_none hp] at hst
      cases hst
    · rw [Prog.bind_of_some hp] at hst
      rw [Prog.bind_of_some hp, Prog.bind_of_some hp]
      dsimp only at hst ⊢
      by_cases hbad : prc ≠ 0 ∨ h' = 0
      · rw [decide_eq_true hbad] at hst
        cases hst
      · have hrc : prc = 0 := by omega
        subst hrc
        rw [decide_eq_false hbad] at hst ⊢
        rw [if_neg hbad]
        cases hst
        exact ⟨rfl, rfl⟩
  · rw [Prog.bind_of_some hc] at hst
    rw [Prog.bind_of_some hc, Prog.bind_of_some hc]
    cases hst
    exact ⟨rfl, rfl⟩

theorem prepared_runs {k : Nat} (hst : statement g (.prepared k) s = (some h, s₀)) : k = h ∧ s = s₀ ∧ k ∈ s.user := by
  by_cases hu : k ∈ s.user
  · have hin : statement g (.prepared k) s = (some k, s) := by
      show (Prog.throwIf (decide (k ∉ s.user)) >>= fun _ => pure k : Op Nat) s = _
      rw [decide_eq_false (not_not.mpr hu)]
      rfl
    rw [hin] at hst
    cases hst
    exact ⟨rfl, rfl, hu⟩
  · have hout : statement g (.prepared k) s = (none, s) := by
      show (Prog.throwIf (decide (k ∉ s.user)) >>= fun _ => pure k : Op Nat) s = _
      rw [decide_eq_true hu]
      rfl
    rw [hout] at hst
    cases hst

/-- A user's statement that is still one. -/
theorem checked {α : Type} {k : Nat} {p : Op α} (hu : k ∈ s.user) :
    (Prog.get >>= fun s => Prog.throwIf (decide (k ∉ s.user)) >>= fun _ => p : Op α) s = p s := by
  show (Prog.throwIf (decide (k ∉ s.user)) >>= fun _ => p : Op α) s = p s
  rw [decide_eq_false (not_not.mpr hu)]
  rfl

theorem result_of {r : SqlResult} {s₂ : State} (hst : statement g path s = (some h, s₀))
    (hb : bindAll g h params s₀ = (some (), s₁)) (hc : capture g h s₁ = (some r, s₂)) (hrc : transient r.rc = false) :
    (path.result g params s).1 = some r := by
  have hscalar : scalar g h params s₀ = (some r, s₂) := (Prog.bind_of_some hb).trans hc
  cases path with
  | cached sql =>
    refine Prog.retry_result (Prog.bind_result (a := r) ?_ fun _ => by rw [hrc]; rfl)
    rw [(cached_runs hst).1]
    exact Prog.tryFinally_result hscalar resetAndClear_returns
  | prepared k =>
    obtain ⟨rfl, rfl, hu⟩ := prepared_runs hst
    refine (congrArg Prod.fst (checked hu)).trans ?_
    refine Prog.retry_result (Prog.bind_result (a := r) ?_ fun _ => by rw [hrc]; rfl)
    exact Prog.tryFinally_result hscalar rfl

theorem rows_of {rows : List SqliteRow} {s₂ : State} (hst : statement g path s = (some h, s₀))
    (hb : bindAll g h params s₀ = (some (), s₁)) (hd : decodeRows g h s₁ = (some (some rows), s₂)) :
    (queryAll g path params s).1 = some rows := by
  have hrows : bindAndDecode g h params s₀ = (some (some rows), s₂) := (Prog.bind_of_some hb).trans hd
  cases path with
  | cached sql =>
    refine Prog.retry_result ?_
    rw [(cached_runs hst).2]
    exact Prog.tryFinally_result hrows resetAndClear_returns
  | prepared k =>
    obtain ⟨rfl, rfl, hu⟩ := prepared_runs hst
    refine (congrArg Prod.fst (checked hu)).trans ?_
    exact Prog.retry_result (Prog.tryFinally_result hrows rfl)

theorem rowOf_first {cols : List String} {r : List Value} (hcols : cols ≠ []) :
    (rowOf cols r).values[0]? = some (r.getD 0 .null) := by
  obtain ⟨c, cs, rfl⟩ := List.exists_cons_of_ne_nil hcols
  simp [rowOf]

theorem remaining_columns {st : Stmt} (hr : (remaining g st).rows ≠ []) : (remaining g st).columns ≠ [] := by
  refine g.wide st.sql st.bindings fun hnil => hr ?_
  show (g.outcome st.sql st.bindings).rows.drop st.pos = []
  rw [hnil, List.drop_nil]

/-! ## Where they agree -/

/-- The first value of the first row. -/
def first (o : Outcome) : Option Value := o.rows.head?.map fun r => r.getD 0 .null

/-- SQLite and Kotlin read the same number. -/
def LongPlain : Option Value → Prop
  | none | some .null | some (.long _) => True
  | some (.text t) => TextToLong.Plain t.toList
  | some _ => False

/-- The text ends where its bytes do. -/
def TextPlain : Option Value → Prop
  | none | some .null | some (.long _) => True
  | some (.text t) => '\x00' ∉ t.toList
  | some _ => False

theorem int64_plain {v : Value} (hv : LongPlain (some v)) : int64 g v = longOf v := by
  cases v with
  | null => rfl
  | long n => rfl
  | text t => exact (TextToLong.getLong_of_plain hv).symm
  | double x => exact hv.elim
  | blob b => exact hv.elim

theorem readCString_of_plain {t : String} (ht : '\x00' ∉ t.toList) : readCString (some t) = t := by
  have hall : t.toList.takeWhile (fun c => decide (c ≠ '\x00')) = t.toList :=
    List.takeWhile_eq_self_iff.mpr fun c hc => by
      simp only [decide_eq_true_eq]
      exact fun h => ht (h ▸ hc)
  rw [readCString, hall, String.ofList_toList]

theorem nul_not_mem_repr {n : Nat} : '\x00' ∉ n.repr.toList := by
  rw [Nat.toList_repr]
  exact fun h => absurd (Nat.isDigit_of_mem_toDigits (by decide) (by decide) h) (by decide)

theorem nul_not_mem_toString (n : Int) : '\x00' ∉ (toString n).toList := by
  cases n with
  | ofNat m => exact nul_not_mem_repr
  | negSucc m =>
    show '\x00' ∉ ("-" ++ Nat.repr (m + 1)).toList
    rw [String.toList_append, List.mem_append]
    rintro (h | h)
    · exact absurd h (by decide)
    · exact nul_not_mem_repr h

theorem text_plain {v : Value} (hv : TextPlain (some v)) : readCString (pointee g v) = textOf g v := by
  cases v with
  | null => rfl
  | long n => exact readCString_of_plain (nul_not_mem_toString n)
  | text t => exact readCString_of_plain hv
  | double x => exact hv.elim
  | blob b => exact hv.elim

/-- **Where the scalar and the row path agree**: for a statement that ends
without an error, `query` returns all its rows, in order; `queryLong` is their
`getLong(0)` with no row, on an INTEGER, a NULL and a plain text, and `queryText`
their `getText(0)` with no row, on an INTEGER, a NULL and a text without a NUL. On
any other text `queryLong` is SQLite's number and `getLong(0)` Kotlin's. -/
theorem scalar_row_agree (g : Guest) (path : Path) (params : List Param) (s : State) {o : Outcome}
    (ho : execution g path params s = some o) (hdone : o.rc = DONE) :
    (queryAll g path params s).1 = some (o.rows.map (rowOf o.columns)) ∧
      (LongPlain (first o) → (queryLong g path params s).1 = firstLong (o.rows.map (rowOf o.columns))) ∧
      (TextPlain (first o) → (queryText g path params s).1 = firstText g (o.rows.map (rowOf o.columns))) ∧
      ∀ t, first o = some (.text t) →
        (queryLong g path params s).1 = some (TextToLong.columnInt64 t.toList) ∧
          firstLong (o.rows.map (rowOf o.columns)) = some (TextToLong.getLong t.toList) := by
  obtain ⟨h, s₀, s₁, hst, hb, rfl⟩ := execution_some ho
  obtain ⟨s₂, hd⟩ := decodeRows_rows hdone
  refine ⟨rows_of hst hb hd, ?_⟩
  cases hrows : (remaining g (s₁.store h)).rows with
  | nil =>
    obtain ⟨s₃, hc⟩ := capture_done hrows hdone
    have hresult : (path.result g params s).1 = some ⟨0, 0, ""⟩ := result_of hst hb hc rfl
    have hfirst : first (remaining g (s₁.store h)) = none := by rw [first, hrows]; rfl
    refine ⟨fun _ => Prog.bind_result hresult fun _ => rfl, fun _ => Prog.bind_result hresult fun _ => rfl, ?_⟩
    intro t ht
    rw [hfirst] at ht
    cases ht
  | cons r rest =>
    obtain ⟨s₃, hc⟩ := capture_row hrows
    have hresult := result_of hst hb hc rfl
    have hfirst : first (remaining g (s₁.store h)) = some (r.getD 0 .null) := by rw [first, hrows]; rfl
    have hcell : (rowOf (remaining g (s₁.store h)).columns r).values[0]? = some (r.getD 0 .null) :=
      rowOf_first (remaining_columns (by rw [hrows]; exact List.cons_ne_nil r rest))
    have hlong : (queryLong g path params s).1 = some (int64 g (r.getD 0 .null)) :=
      Prog.bind_result hresult fun _ => rfl
    have htext : (queryText g path params s).1 = some (readCString (pointee g (r.getD 0 .null))) :=
      Prog.bind_result hresult fun _ => rfl
    simp only [hfirst, hlong, htext, List.map_cons, firstLong, firstText, hcell, Option.map_some]
    refine ⟨fun hv => by rw [int64_plain hv], fun hv => by rw [text_plain hv], fun t ht => ?_⟩
    rw [Option.some.inj ht]
    exact ⟨rfl, rfl⟩

/-- A database with one row of one text. -/
def holding (t : String) : Guest where
  prepare _ _ := (0, 1)
  params _ := 0
  outcome _ _ := ⟨["s"], [[.text t]], DONE⟩
  wide _ _ _ := List.cons_ne_nil _ _
  asLong _ := 0
  asText _ := ""
  errmsg _ := ""
  doubleText _ := ""
  blobText _ := ""

/-- The query of a text. -/
def select : Path := .cached "SELECT s FROM t"

/-- The one row of that database. -/
def onlyRow (t : String) : List SqliteRow := [⟨["s"], [.text t]⟩]

theorem scalar_row_agree_fraction : (queryAll (holding " -42.50 ") select [] {}).1 = some (onlyRow " -42.50 ") ∧
    (queryLong (holding " -42.50 ") select [] {}).1 = firstLong (onlyRow " -42.50 ") ∧
      (queryText (holding " -42.50 ") select [] {}).1 = firstText (holding " -42.50 ") (onlyRow " -42.50 ") := by
  have hfraction : TextToLong.Fraction ['-'] ['4', '2'] ['5', '0'] :=
    ⟨.inr (.inl rfl), by decide, List.all_eq_true.mp rfl, List.all_eq_true.mp rfl⟩
  have hblanks : TextToLong.Between [' '] [' '] := ⟨List.all_eq_true.mp rfl, List.all_eq_true.mp rfl⟩
  have hplain : TextToLong.Fractional " -42.50 ".toList :=
    ⟨_, _, _, _, _, by decide, hfraction, hblanks, hfraction.clear_of_short (by decide)⟩
  have hnul : '\x00' ∉ " -42.50 ".toList := by decide
  obtain ⟨hrows, hlong, htext, -⟩ := scalar_row_agree (holding " -42.50 ") select [] {} rfl rfl
  exact ⟨hrows, hlong (.inr (.inl hplain)), htext hnul⟩

/-- SQLite reads 12 where Kotlin reads no number. -/
theorem prefix_differs : first ((execution (holding "12abc") select [] {}).getD ⟨[], [], 0⟩) = some (.text "12abc") ∧
    ¬∃ rows, (queryAll (holding "12abc") select [] {}).1 = some rows ∧
      (queryLong (holding "12abc") select [] {}).1 = firstLong rows := by
  refine ⟨rfl, ?_⟩
  rintro ⟨rows, hrows, hlong⟩
  have hrow : (queryAll (holding "12abc") select [] {}).1 = some (onlyRow "12abc") := rfl
  have htwelve : (queryLong (holding "12abc") select [] {}).1 = some 12 := by decide +kernel
  rw [hrow] at hrows
  cases hrows
  rw [htwelve] at hlong
  exact absurd hlong (by decide +kernel)

end ScalarAndRow

end Sqlol

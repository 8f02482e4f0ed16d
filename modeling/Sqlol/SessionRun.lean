/-
`Session.run` and what it retries.

`run` tries a text up to 200 times, as long as the answer is BUSY or
PROTOCOL. A text without `;` goes through the cached prepared statement, one
statement an attempt. Any other text goes to `sqlite3_exec`, which stops at
the first statement that fails and keeps the effects of those before it, in
autocommit and inside an open transaction alike. The next attempt then
starts over from the first statement. "Both fail before a transaction
starts" is so of an attempt whose first statement failed; `appliedOnce_iff`
says that it has to be.

The cached statement is stepped once. When that gives a row, SQLite ends the
statement at the reset, where it commits in autocommit, and `query` does not
look at the reset's code: an `INSERT .. RETURNING` whose commit fails there is
undone behind rc 0.

SQLite itself is a parameter: the answers of the successive `prepare` calls
and of the successive statement runs, whatever they are.
-/
import Mathlib.Data.List.Basic

namespace Sqlol

/-- How a statement runs: to a first row (its first column as a number and as
text) and from there to its end with the code `ends`, without a row, or into an
error. -/
inductive Outcome where
  | row (long : Int) (text : String) (ends : Int)
  | done
  | fail (rc : Int) (ne : rc ≠ 0)

/-- `SQLITE_BUSY`. -/
def BUSY_RC : Int := 5

/-- `SQLITE_PROTOCOL`. -/
def PROTOCOL_RC : Int := 15

/-- The codes `run` retries. -/
def transient (rc : Int) : Bool := rc = BUSY_RC || rc = PROTOCOL_RC

namespace Outcome

/-- The code at the end of the statement, be it reset behind its first row or
stepped on; the statement is applied when it is 0. -/
def ended : Outcome → Int
  | .row _ _ ends => ends
  | .done => 0
  | .fail rc _ => rc

/-- The code of the first step, as `query` counts it. -/
def stepped : Outcome → Int
  | .row .. | .done => 0
  | .fail rc _ => rc

/-- The code an attempt sees: of the first step on the cached path, of the whole
statement on `sqlite3_exec`'s. -/
def seen (cacheable : Bool) (o : Outcome) : Int := if cacheable then o.stepped else o.ended

end Outcome

/-- `sql.contains(c)`. -/
def contains (sql : String) (c : Char) : Bool := sql.toList.contains c

/-- A text and the statements SQLite finds in it. Without a `;` there is at most one. -/
structure Script (Stmt : Type) where
  text : String
  stmts : List Stmt
  single : contains text ';' = false → stmts.length ≤ 1

/-- The guest's answers: `prepare k` is the code of the `k`-th `prepare`,
`outcome k` what becomes of the `k`-th statement run. -/
structure Guest where
  prepare : Nat → Int
  outcome : Nat → Outcome
  errmsg : Int → String

/-- The result of `run`. -/
structure SqlResult where
  rc : Int
  long : Int
  text : String

/-- The statement cache (eldest first), how many answers are used up, and the
effects on the database in their order. -/
structure Session (Stmt : Type) where
  cache : List String := []
  prepares : Nat := 0
  runs : Nat := 0
  applied : List Stmt := []

namespace Session

variable {Stmt : Type} (g : Guest)

/-- The size of the statement cache. -/
def STMT_CACHE : Nat := 64

/-- `errmsg(rc)`: empty when there is no error. -/
def errmsg (rc : Int) : String := if rc = 0 then "" else g.errmsg rc

/-- One statement run, to its end. -/
def runStmt (s : Session Stmt) (st : Stmt) : Session Stmt × Outcome :=
  let o := g.outcome s.runs
  ({ s with runs := s.runs + 1, applied := if o.ended = 0 then s.applied ++ [st] else s.applied }, o)

/-- `sqlite3_exec`: the statements in order, up to the first that fails. -/
def exec (s : Session Stmt) : List Stmt → Session Stmt × Int
  | [] => (s, 0)
  | st :: rest =>
    let (s, o) := s.runStmt g st
    if o.ended = 0 then s.exec rest else (s, o.ended)

/-- The tail of `query`: step, then reset, whose code nobody reads. -/
def stepCached (s : Session Stmt) (st : Stmt) : Session Stmt × SqlResult :=
  match s.runStmt g st with
  | (s, .row long text _) => (s, ⟨0, long, text⟩)
  | (s, .done) => (s, ⟨0, 0, ""⟩)
  | (s, .fail rc _) => (s, ⟨rc, 0, errmsg g rc⟩)

/-- The cached statement of the text, prepared first when it is not there.
`prepare` sees the first statement only; a text without one has no statement
to cache. -/
def query (s : Session Stmt) (sql : Script Stmt) : Session Stmt × SqlResult :=
  match sql.stmts with
  | st :: _ =>
    if sql.text ∈ s.cache then
      { s with cache := s.cache.erase sql.text ++ [sql.text] }.stepCached g st
    else
      let prc := g.prepare s.prepares
      let s := { s with prepares := s.prepares + 1 }
      if prc ≠ 0 then (s, ⟨prc, 0, errmsg g prc⟩)
      else
        let cache := s.cache ++ [sql.text]
        { s with cache := if cache.length > STMT_CACHE then cache.tail else cache }.stepCached g st
  | [] =>
    let prc := g.prepare s.prepares
    ({ s with prepares := s.prepares + 1 }, ⟨prc, 0, errmsg g prc⟩)

/-- One attempt. -/
def attempt (s : Session Stmt) (sql : Script Stmt) (isQuery : Bool) : Session Stmt × SqlResult :=
  let cacheable := isQuery || !contains sql.text ';'
  if cacheable then s.query g sql
  else
    let (s, rc) := s.exec g sql.stmts
    (s, ⟨rc, 0, ""⟩)

/-- `repeat(left) { ... }`; `none` is the exception behind it. -/
def attempts (sql : Script Stmt) (isQuery : Bool) : Nat → Session Stmt → Session Stmt × Option SqlResult
  | 0, s => (s, none)
  | left + 1, s =>
    let (s, r) := s.attempt g sql isQuery
    if transient r.rc then attempts sql isQuery left s else (s, some r)

/-- `run(sql, isQuery)` without parameters, so nothing is bound. -/
def run (s : Session Stmt) (sql : Script Stmt) (isQuery : Bool) : Session Stmt × Option SqlResult :=
  attempts g sql isQuery 200 s

section
variable {g}

end

/-- An attempt that ends with BUSY. -/
def busy : Outcome := .fail BUSY_RC (by decide)

end Session

end Sqlol

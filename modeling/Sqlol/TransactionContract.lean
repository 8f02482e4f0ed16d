/-
What a JDBC connection is for, beside what it does: writes are committed one by one, or
together with the others of their transaction; and a call that throws runs no write and
changes nothing.

`transactions_run_iff` says when the connection and SQLite keep to that, whatever the calls:
in exactly the runs whose steps are `Sound`. What is not is a `begin` or a `commit` that fails
behind the flag or behind the end of a transaction, a transaction SQLite ends by itself or by
the release of its first savepoint, a `commit` that fails behind a statement, the commit of
`tryEnforceTransactionMode` when the transaction it upgrades has begun already (it comes
before a statement, and before the query for the generated keys of `executeUpdate`), and what
throws behind a write: that query, and `executeQuery`, which finds no result set.
-/
import Sqlol.JdbcTransactions

namespace Sqlol

namespace JdbcTransactions

open Savepoints (Work)

/-- Without `work`, the connection commits by itself. `ran` are the writes of the calls that returned. -/
structure Contract (ω : Type) where
  ran : List ω := []
  committed : List ω := []
  work : Option (Work String ω) := none
  deriving DecidableEq

variable {ω : Type}

namespace Contract

/-- Turning it on commits what is open, turning it off opens a transaction. -/
def setAutoCommit (a : Contract ω) (ac : Bool) : Contract ω := match ac, a.work with
  | true, some w => { a with committed := a.committed ++ w.writes, work := none }
  | false, none => { a with work := some {} }
  | _, _ => a

/-- What is open is committed, and a new transaction is open. -/
def commit (a : Contract ω) : Contract ω := match a.work with
  | some w => { a with committed := a.committed ++ w.writes, work := some {} }
  | none => a

/-- A write is committed at once, or with its transaction. -/
def execute (a : Contract ω) : Statement ω → Contract ω
  | .query _ => a
  | .write x _ => match a.work with
    | some w => { a with ran := a.ran ++ [x], work := some (w.write x) }
    | none => { a with ran := a.ran ++ [x], committed := a.committed ++ [x] }

/-- A call that returns. A new savepoint's name has the number `id`. -/
def next (a : Contract ω) (id : Int) : Label ω → Contract ω
  | .setAutoCommit ac _ => a.setAutoCommit ac
  | .commit _ _ => a.commit
  | .rollback _ _ => { a with work := a.work.map fun _ => {} }
  | .setSavepoint name _ => { a with work := some ((a.work.getD {}).set (Connection.getSavepointName id name).toLower) }
  | .releaseSavepoint name _ => { a with work := a.work.map fun w => (w.release name.toLower).getD w }
  | .rollbackTo name _ => { a with work := a.work.map fun w => (w.rollbackTo name.toLower).getD w }
  | .setReadOnly _ => a
  | .execute _ s _ _ _ => a.execute s

end Contract

/-- The connection and its contract, side by side: a call that throws leaves the contract alone. -/
def step (cfg : SQLiteConfig) (x : Connection ω × Contract ω) (l : Label ω) : Option (Connection ω × Contract ω) :=
  match program cfg l x.1 with
  | (some _, c) => some (c, x.2.next (i32 (x.1.savePoint + 1)) l)
  | (none, c) => some (c, x.2)

/-- SQLite has run and committed what the contract says, and the flag tells whether a transaction is open. -/
structure Agree (c : Connection ω) (a : Contract ω) : Prop where
  ran : c.engine.ran = a.ran
  committed : c.engine.committed = a.committed
  work : c.engine.work = a.work
  autoCommit : c.autoCommit = a.work.isNone

namespace Connection

/-- SQLite will not have the statement. -/
def rejects (c : Connection ω) (s : Statement ω) : Bool := c.engine.queryOnly && s.isWrite

/-- `tryEnforceTransactionMode` ends the transaction and begins another, or throws. -/
def upgradable (cfg : SQLiteConfig) (c : Connection ω) : Bool :=
  cfg.explicitReadOnly && !c.autoCommit && !c.isReadOnly cfg && c.currentTransactionMode == some .deferred

/-- The part of `execute` before the statement itself. -/
def enforce (cfg : SQLiteConfig) (via : Via) (en : Enforced) : Op ω Unit :=
  Prog.onlyIf via.enforces (tryEnforceTransactionMode cfg en)

end Connection

/-- The `begin` and `commit` behind a statement that ran to its end. -/
def Weather.Settles (w : Weather) : Statement ω → Prop
  | .write _ _ => w.prepared = true ∧ (w.begin = .ok → w.commit = .ok)
  | .query rows => rows = false → w.prepared = true → w.begin = .ok → w.commit ≠ .refused

/-- The upgrade does not come about, or there is nothing in the transaction yet and a new one begins. -/
def Enforced.Keeps (en : Enforced) (c : Connection ω) : Prop :=
  en.commit = .refused ∨
    (c.engine.work = some {} ∧ en.begin = .ok ∧
      (en.pragma = true ∨ c.engine.queryOnly = false ∨ c.engine.readOnlyFile = true))

/-- The statement itself keeps the contract. -/
def SoundStatement (c : Connection ω) (via : Connection.Via) (s : Statement ω) (w : Weather) : Prop :=
  match c.engine.work with
  | none => via ≠ .update → w.stmt = .ok → c.rejects s = false → w.Settles s
  | some _ => w.stmt = .lost → c.rejects s = true

/-- Behind a write nothing throws, and nothing ends the transaction. -/
def SoundBehind (cfg : SQLiteConfig) (c : Connection ω) (via : Connection.Via) (s : Statement ω) (k : Keys) : Prop :=
  via ≠ .query ∧ (via.keys = true → cfg.getGeneratedKeys = true → k.cleared = true ∧ (s.isInsert = true →
    k.stmt = .ok ∧ (c.upgradable cfg = true → c.firstStatementExecuted = false ∧ k.en.Keeps c)))

/-- The statement with what comes behind it, where `c` is what it finds. -/
def SoundRun (cfg : SQLiteConfig) (c : Connection ω) (via : Connection.Via) (s : Statement ω) (w : Weather) (k : Keys) :
    Prop :=
  SoundStatement c via s w ∧ ((Connection.runStatement via s w c).1 = some () → s.isWrite = true →
    SoundBehind cfg (Connection.runStatement via s w c).2 via s k)

/-- A step that keeps the contract. -/
def Sound (cfg : SQLiteConfig) (c : Connection ω) : Label ω → Prop
  | .setAutoCommit ac w => c.autoCommit ≠ ac → w.stmt = .ok ∧
    if ac then w.prepared = true ∧ (w.begin = .ok → w.commit = .ok)
    else cfg.transactionMode.refused c.engine.queryOnly c.engine.readOnlyFile = false
  | .commit w₁ w₂ | .rollback w₁ w₂ => c.autoCommit = false → w₁.stmt = .refused ∨
    (w₁.stmt = .ok ∧ w₂.stmt = .ok ∧ cfg.transactionMode.refused c.engine.queryOnly c.engine.readOnlyFile = false)
  | .setSavepoint name w =>
    if c.autoCommit then Connection.isIdentifier (i32 (c.savePoint + 1)) name = true ∧ w.stmt = .ok
    else Connection.isIdentifier (i32 (c.savePoint + 1)) name = true → w.stmt ≠ .lost
  | .releaseSavepoint name w => c.autoCommit = false → ∀ work, c.engine.work = some work → name.toLower ∈ work.names →
    w.stmt = .refused ∨ (w.stmt = .ok ∧ c.engine.closesTransaction work name.toLower = false)
  | .rollbackTo name w => c.autoCommit = false → ∀ work, c.engine.work = some work → name.toLower ∈ work.names →
    w.stmt ≠ .lost
  | .setReadOnly _ => True
  | .execute via s en w k => via.refuses s = false →
    (via.enforces = true → c.upgradable cfg = true → c.firstStatementExecuted = false → en.Keeps c) ∧
    ((Connection.enforce cfg via en c).1 = some () → SoundRun cfg (Connection.enforce cfg via en c).2 via s w k)

/-! ## Programs -/

attribute [simp] Engine.apply Engine.finish Sql.rows

@[simp] theorem refused_deferred (queryOnly readOnlyFile : Bool) :
    TransactionMode.deferred.refused queryOnly readOnlyFile = false := Bool.and_false _

@[simp] theorem refused_immediate (queryOnly readOnlyFile : Bool) :
    TransactionMode.immediate.refused queryOnly readOnlyFile = (queryOnly && !readOnlyFile) := Bool.and_true _

section
variable {cfg : SQLiteConfig} {c : Connection ω} {a : Contract ω} {E : Connection ω → Prop} {w : Weather}

/-- A statement fails, and the transaction with it or not, or it runs. -/
theorem Engine.step_cases (e : Engine ω) (sql : Sql ω) (x : Answer) :
    e.step sql x = (.error, e) ∨ e.step sql x = (.error, e.finish []) ∨
      ∃ e', e.apply sql = some e' ∧ e.step sql x = (if sql.rows then .row else .done, e') := by
  unfold Engine.step
  cases e.apply sql with
  | none => exact .inl rfl
  | some e' =>
    cases x with
    | ok => exact .inr (.inr ⟨e', rfl, rfl⟩)
    | refused => exact .inl rfl
    | lost => exact .inr (.inl rfl)

theorem agree_iff : Agree c a ↔ c.engine.ran = a.ran ∧ c.engine.committed = a.committed ∧ c.engine.work = a.work ∧
    c.autoCommit = a.work.isNone :=
  ⟨fun h => ⟨h.ran, h.committed, h.work, h.autoCommit⟩, fun ⟨hr, hc, hw, ha⟩ => ⟨hr, hc, hw, ha⟩⟩

theorem wp_step {sql : Sql ω} {x : Answer} {Q : Rc → Connection ω → Prop} : (Connection.step sql x).wp Q E c ↔
    Q (c.engine.step sql x).1 { c with engine := (c.engine.step sql x).2 } := Iff.rfl

@[simp] theorem wp_ensure_false {Q : Unit → Connection ω → Prop} :
    (Connection.ensureAutoCommit false w).wp Q E c ↔ Q () c := Iff.rfl

@[simp] theorem wp_exec {sql : Sql ω} {ac : Bool} {Q : Bool → Connection ω → Prop} :
    (Connection.exec sql ac w).wp Q E c ↔
    match c.engine.apply sql, w.stmt with
    | none, _ => E c
    | some e, .ok => if sql.rows then Q true { c with engine := e }
      else (Connection.ensureAutoCommit ac w).wp (fun _ => Q false) E { c with engine := e }
    | some _, .refused => E c
    | some _, .lost => E { c with engine := c.engine.finish [] } := by
  cases happly : c.engine.apply sql with
  | none =>
    simp only [Connection.exec, Prog.wp_bind, wp_step, Engine.step, happly]
    exact Iff.rfl
  | some e =>
    cases hstmt : w.stmt <;> simp only [Connection.exec, Prog.wp_bind, wp_step, Engine.step, happly, hstmt]
    case ok =>
      cases sql.rows with
      | true => exact Iff.rfl
      | false => exact Prog.wp_bind
    case refused => exact Iff.rfl
    case lost => exact Iff.rfl

/-- Behind a statement of an auto-commit connection, when SQLite has no transaction open. -/
theorem wp_ensure_idle {Q : Unit → Connection ω → Prop} (hw : c.engine.work = none) :
    (Connection.ensureAutoCommit true w).wp Q E c ↔
      if w.prepared then match w.begin, w.commit with
        | .ok, .ok => Q () { c with engine := { c.engine with isTransactionSavepoint := false } }
        | .ok, .refused => E { c with engine := { c.engine with work := some {}, isTransactionSavepoint := false } }
        | .ok, .lost => E { c with engine := { c.engine with isTransactionSavepoint := false } }
        | .refused, _ => Q () c
        | .lost, _ => Q () { c with engine := { c.engine with isTransactionSavepoint := false } }
      else E c := by
  obtain ⟨⟨ran, committed, work, ts, qo, rf⟩, _⟩ := c
  cases hw
  cases hp : w.prepared <;> cases hb : w.begin <;> cases hc : w.commit <;>
    simp [Connection.ensureAutoCommit, Prog.wp_bind, Prog.wp_throwIf, wp_step, Engine.step, Engine.apply,
      Engine.finish, Sql.rows, hp, hb, hc]

end

/-! ## Calls -/

section
variable {cfg : SQLiteConfig} {c : Connection ω} {a : Contract ω}

/-- What a step leaves agrees with the contract. -/
def Kept (cfg : SQLiteConfig) (c : Connection ω) (a : Contract ω) (l : Label ω) : Prop :=
  (program cfg l).wp (fun _ c' => Agree c' (a.next (i32 (c.savePoint + 1)) l)) (fun c' => Agree c' a) c

theorem kept_setAutoCommit (h : Agree c a) (ac : Bool) (w : Weather) :
    Kept cfg c a (.setAutoCommit ac w) ↔ Sound cfg c (.setAutoCommit ac w) := by
  obtain ⟨⟨ran, committed, work, ts, qo, rf⟩, auto, mode, first, ro, sp⟩ := c
  obtain ⟨rfl, rfl, rfl, rfl⟩ := agree_iff.mp h
  obtain ⟨ran, committed, work⟩ := a
  simp only [Kept, program, Connection.setAutoCommit, Prog.wp_bind, Prog.wp_get]
  cases work with
  | none =>
    cases ac with
    | true => simpa [Sound, Contract.next, Contract.setAutoCommit] using h
    | false =>
      cases hmode : cfg.transactionMode.refused qo rf <;> cases hstmt : w.stmt <;>
        simp [Sound, Contract.next, Contract.setAutoCommit, Prog.wp_bind, agree_iff, hmode, hstmt]
  | some work =>
    cases ac with
    | true =>
      cases hstmt : w.stmt <;>
        simp [Sound, Contract.next, Contract.setAutoCommit, Prog.wp_bind, wp_ensure_idle, agree_iff, hstmt]
      cases hp : w.prepared <;> cases hb : w.begin <;> cases hc : w.commit <;> simp
    | false => simpa [Sound, Contract.next, Contract.setAutoCommit] using h

/-- `commit` and `rollback` are one call but for the writes they keep. -/
theorem endAndBegin_iff (h : Agree c a) {sql : Sql ω} {a' : Contract ω}
    (hsql : ∀ work, a.work = some work → ∃ writes, c.engine.apply sql = some (c.engine.finish writes) ∧
      a' = { a with committed := a.committed ++ writes, work := some {} }) (w₁ w₂ : Weather) :
    (Connection.endAndBegin cfg sql w₁ w₂).wp (fun _ c' => Agree c' a') (fun c' => Agree c' a) c ↔
      Sound cfg c (.commit w₁ w₂) := by
  obtain ⟨⟨ran, committed, work, ts, qo, rf⟩, auto, mode, first, ro, sp⟩ := c
  obtain ⟨rfl, rfl, rfl, rfl⟩ := agree_iff.mp h
  obtain ⟨ran, committed, work⟩ := a
  simp only [Connection.endAndBegin, Prog.wp_bind, Prog.wp_get, Prog.wp_throwIf]
  cases work with
  | none => simpa [Sound] using h
  | some work =>
    obtain ⟨writes, happly, rfl⟩ := hsql work rfl
    rw [Option.isNone_some, if_neg (by decide), wp_exec, happly]
    cases hmode : cfg.transactionMode.refused qo rf <;> cases h₁ : w₁.stmt <;> cases h₂ : w₂.stmt <;>
      simp [Sound, Prog.wp_bind, agree_iff, hmode, h₁, h₂]

theorem kept_commit (h : Agree c a) (w₁ w₂ : Weather) :
    Kept cfg c a (.commit w₁ w₂) ↔ Sound cfg c (.commit w₁ w₂) :=
  endAndBegin_iff h (fun work hw => ⟨work.writes, by simp [h.work, hw], by simp [Contract.next, Contract.commit, hw]⟩)
    w₁ w₂

theorem kept_rollback (h : Agree c a) (w₁ w₂ : Weather) :
    Kept cfg c a (.rollback w₁ w₂) ↔ Sound cfg c (.rollback w₁ w₂) :=
  endAndBegin_iff h (fun work hw => ⟨[], by simp [h.work, hw], by simp [Contract.next, hw]⟩) w₁ w₂

theorem kept_setSavepoint (h : Agree c a) (name : Option String) (w : Weather) :
    Kept cfg c a (.setSavepoint name w) ↔ Sound cfg c (.setSavepoint name w) := by
  obtain ⟨⟨ran, committed, work, ts, qo, rf⟩, auto, mode, first, ro, sp⟩ := c
  obtain ⟨rfl, rfl, rfl, rfl⟩ := agree_iff.mp h
  obtain ⟨ran, committed, work⟩ := a
  simp only [Kept, program, Connection.setSavepoint, Prog.wp_bind, Prog.wp_get, Prog.wp_modify, Prog.wp_throwIf]
  cases hname : Connection.isIdentifier (i32 (sp + 1)) name <;> cases work <;> cases hstmt : w.stmt <;>
    simp [Sound, Contract.next, agree_iff, hname, hstmt]

theorem kept_releaseSavepoint (h : Agree c a) (name : String) (w : Weather) :
    Kept cfg c a (.releaseSavepoint name w) ↔ Sound cfg c (.releaseSavepoint name w) := by
  obtain ⟨⟨ran, committed, work, ts, qo, rf⟩, auto, mode, first, ro, sp⟩ := c
  obtain ⟨rfl, rfl, rfl, rfl⟩ := agree_iff.mp h
  obtain ⟨ran, committed, work⟩ := a
  simp only [Kept, program, Connection.releaseSavepoint, Prog.wp_bind, Prog.wp_get, Prog.wp_throwIf]
  cases work with
  | none => simpa [Sound] using h
  | some work =>
    cases hfind : work.find name.toLower with
    | nil =>
      have hname := Work.find_eq_nil.mp hfind
      simp [Sound, Work.release, hfind, hname, agree_iff]
    | cons m outer =>
      have hname : name.toLower ∈ work.names := by
        by_contra hno
        rw [Work.find_eq_nil.mpr hno] at hfind
        cases hfind
      cases hclose : Engine.closesTransaction ⟨ran, committed, some work, ts, qo, rf⟩ work name.toLower <;>
        cases hstmt : w.stmt <;>
        simp [Sound, Contract.next, Work.release, hfind, hname, hclose, hstmt, agree_iff]

theorem kept_rollbackTo (h : Agree c a) (name : String) (w : Weather) :
    Kept cfg c a (.rollbackTo name w) ↔ Sound cfg c (.rollbackTo name w) := by
  obtain ⟨⟨ran, committed, work, ts, qo, rf⟩, auto, mode, first, ro, sp⟩ := c
  obtain ⟨rfl, rfl, rfl, rfl⟩ := agree_iff.mp h
  obtain ⟨ran, committed, work⟩ := a
  simp only [Kept, program, Connection.rollbackTo, Prog.wp_bind, Prog.wp_get, Prog.wp_throwIf]
  cases work with
  | none => simpa [Sound] using h
  | some work =>
    cases hfind : work.find name.toLower with
    | nil =>
      have hname := Work.find_eq_nil.mp hfind
      simp [Sound, Work.rollbackTo, hfind, hname, agree_iff]
    | cons m outer =>
      have hname : name.toLower ∈ work.names := by
        by_contra hno
        rw [Work.find_eq_nil.mpr hno] at hfind
        cases hfind
      cases hstmt : w.stmt <;> simp [Sound, Contract.next, Work.rollbackTo, hfind, hname, hstmt, agree_iff]

theorem kept_setReadOnly (h : Agree c a) (ro : Bool) :
    Kept cfg c a (.setReadOnly ro) ↔ Sound cfg c (.setReadOnly ro) := by
  refine iff_of_true ?_ trivial
  have hro : Agree { c with readOnly := ro } a := ⟨h.ran, h.committed, h.work, h.autoCommit⟩
  simp only [Kept, program, Connection.setReadOnly, Prog.wp_bind, Prog.wp_get]
  split <;> rw [Prog.wp_bind, Prog.wp_throwIf] <;> split
  all_goals first | exact h | exact hro

/-! ## Statements -/

/-- `DB.executeUpdate` throws at a row. -/
def Connection.Via.atRows : Connection.Via → Bool
  | .batch | .preparedUpdate => true
  | .statement | .query | .update | .prepared | .preparedQuery => false

/-- The statement with what comes behind it, in auto-commit mode. -/
theorem exec_auto (h : Agree c a) (hw : a.work = none) (s : Statement ω) (w : Weather) (atRows : Bool) :
    (Connection.exec (.statement s) true w).wp
      (fun rows c' => if atRows && rows then Agree c' a else Agree c' (a.execute s)) (fun c' => Agree c' a) c ↔
      (w.stmt = .ok → c.rejects s = false → w.Settles s) := by
  obtain ⟨⟨ran, committed, work, ts, qo, rf⟩, auto, mode, first, ro, sp⟩ := c
  obtain ⟨rfl, rfl, rfl, rfl⟩ := agree_iff.mp h
  obtain ⟨ran, committed, work⟩ := a
  simp only at hw
  subst hw
  -- Behind a statement that went well, SQLite's begin and commit decide.
  cases s with
  | query rows =>
    cases hstmt : w.stmt
    case ok =>
      simp [Contract.execute, Connection.rejects, Statement.isWrite, wp_ensure_idle, Weather.Settles, agree_iff, hstmt]
      cases w.begin <;> cases w.commit <;> simp
    all_goals simp [Contract.execute, Connection.rejects, Statement.isWrite, agree_iff, hstmt]
  | write x insert =>
    cases qo with
    | true =>
      cases hstmt : w.stmt <;>
        simp [Contract.execute, Connection.rejects, Statement.isWrite, agree_iff, hstmt]
    | false =>
      cases hstmt : w.stmt
      case ok =>
        simp [Contract.execute, Connection.rejects, Statement.isWrite, wp_ensure_idle, Weather.Settles, agree_iff,
          hstmt]
        cases w.begin <;> cases w.commit <;> simp
      all_goals simp [Contract.execute, Connection.rejects, Statement.isWrite, agree_iff, hstmt]

/-- The statement in manual mode. -/
theorem exec_manual {work : Work String ω} (h : Agree c a) (hw : a.work = some work) (s : Statement ω) (w : Weather)
    (atRows : Bool) :
    (Connection.exec (.statement s) false w).wp
      (fun rows c' => if atRows && rows then Agree c' a else Agree c' (a.execute s)) (fun c' => Agree c' a) c ↔
      (w.stmt = .lost → c.rejects s = true) := by
  obtain ⟨⟨ran, committed, work, ts, qo, rf⟩, auto, mode, first, ro, sp⟩ := c
  obtain ⟨rfl, rfl, rfl, rfl⟩ := agree_iff.mp h
  obtain ⟨ran, committed, work⟩ := a
  simp only at hw
  subst hw
  cases hstmt : w.stmt <;> cases s with
  | query rows => simp [Contract.execute, Connection.rejects, Statement.isWrite, agree_iff, hstmt]
  | write x insert => cases qo <;> simp [Contract.execute, Connection.rejects, Statement.isWrite, agree_iff, hstmt]

/-- A statement that returns has been run, whatever came of what is behind it. -/
theorem exec_returns (h : Agree c a) (s : Statement ω) (w : Weather) (atRows : Bool) :
    (Connection.exec (.statement s) c.autoCommit w).wp
      (fun rows c' => if atRows && rows then True else Agree c' (a.execute s)) (fun _ => True) c := by
  obtain ⟨⟨ran, committed, work, ts, qo, rf⟩, auto, mode, first, ro, sp⟩ := c
  obtain ⟨rfl, rfl, rfl, rfl⟩ := agree_iff.mp h
  obtain ⟨ran, committed, work⟩ := a
  cases work with
  | none =>
    cases s <;> cases qo <;> cases hstmt : w.stmt <;>
      simp [Contract.execute, wp_ensure_idle, agree_iff, hstmt]
    all_goals cases w.begin <;> cases w.commit <;> simp
  | some work =>
    cases s <;> cases qo <;> cases hstmt : w.stmt <;> simp [Contract.execute, agree_iff, hstmt]

/-- The flags that only a later call reads do not matter. -/
theorem agree_congr {c' : Connection ω} (hr : c'.engine.ran = c.engine.ran)
    (he : c'.engine.committed = c.engine.committed) (hw : c'.engine.work = c.engine.work)
    (ha : c'.autoCommit = c.autoCommit) : Agree c' a ↔ Agree c a := by
  rw [agree_iff, agree_iff, hr, he, hw, ha]

theorem agree_first (c : Connection ω) (a : Contract ω) :
    Agree { c with firstStatementExecuted := true } a ↔ Agree c a :=
  agree_congr rfl rfl rfl rfl

/-- A statement by way of `exec`. -/
theorem wp_runStatement {via : Connection.Via} (hvia : via ≠ .update) (s : Statement ω) (w : Weather)
    {Q E : Connection ω → Prop} (hQ : ∀ c : Connection ω, Q { c with firstStatementExecuted := true } ↔ Q c)
    (hE : ∀ c : Connection ω, E { c with firstStatementExecuted := true } ↔ E c) :
    (Connection.runStatement via s w).wp (fun _ => Q) E c ↔
      (Connection.exec (.statement s) c.autoCommit w).wp (fun rows c' => if via.atRows && rows then E c' else Q c') E
        c := by
  have hfinally : (Prog.tryFinally (Connection.exec (.statement s) c.autoCommit w)
      Connection.notifyFirstStatementExecuted).wp (fun _ => Q) E c ↔
      (Connection.exec (.statement s) c.autoCommit w).wp (fun _ => Q) E c := by
    rw [Prog.wp_tryFinally]
    change (Connection.exec (.statement s) c.autoCommit w).wp
      (fun _ c' => Q { c' with firstStatementExecuted := true })
      (fun c' => E { c' with firstStatementExecuted := true }) c ↔ _
    simp only [hQ, hE]
  have hthrow : ∀ rows : Bool, (Prog.throwIf rows).wp (fun _ => Q) E = fun c' => if rows then E c' else Q c' := by
    intro rows
    cases rows <;> rfl
  rw [Connection.runStatement, Prog.wp_bind, Prog.wp_get]
  cases via with
  | statement => exact Prog.wp_bind.trans hfinally
  | query => exact Prog.wp_bind.trans hfinally
  | prepared => exact Prog.wp_bind
  | preparedQuery => exact Prog.wp_bind
  | update => exact absurd rfl hvia
  | batch => simp only [Prog.wp_bind, hthrow, Connection.Via.atRows, Bool.true_and]
  | preparedUpdate => simp only [Prog.wp_bind, hthrow, Connection.Via.atRows, Bool.true_and]

/-- `_exec` has nothing behind the statement. -/
theorem run_update (h : Agree c a) (s : Statement ω) (w : Weather) :
    (Connection.runStatement .update s w).wp (fun _ c' => Agree c' (a.execute s)) (fun c' => Agree c' a) c ↔
      (a.work ≠ none → w.stmt = .lost → c.rejects s = true) := by
  obtain ⟨⟨ran, committed, work, ts, qo, rf⟩, auto, mode, first, ro, sp⟩ := c
  obtain ⟨rfl, rfl, rfl, rfl⟩ := agree_iff.mp h
  obtain ⟨ran, committed, work⟩ := a
  simp only [Connection.runStatement, Prog.wp_bind, Prog.wp_get, Prog.wp_throwIf, wp_step, Engine.step]
  cases hstmt : w.stmt <;> cases work <;> cases s with
  | query rows => cases rows <;> simp [Contract.execute, Connection.rejects, Statement.isWrite, agree_iff]
  | write x insert => cases qo <;> simp [Contract.execute, Connection.rejects, Statement.isWrite, agree_iff]

theorem run_iff (h : Agree c a) (via : Connection.Via) (s : Statement ω) (w : Weather) :
    (Connection.runStatement via s w).wp (fun _ c' => Agree c' (a.execute s)) (fun c' => Agree c' a) c ↔
      SoundStatement c via s w := by
  unfold SoundStatement
  rw [h.work]
  by_cases hvia : via = .update
  · subst hvia
    rw [run_update h]
    cases a.work <;> simp
  · rw [wp_runStatement hvia s w (fun c => agree_first c _) fun c => agree_first c _, h.autoCommit]
    cases hw : a.work with
    | none => exact (exec_auto h hw s w _).trans ⟨fun hs _ => hs, fun hs => hs hvia⟩
    | some work => exact exec_manual h hw s w _

theorem run_returns (h : Agree c a) (via : Connection.Via) (s : Statement ω) (w : Weather) :
    (Connection.runStatement via s w).wp (fun _ c' => Agree c' (a.execute s)) (fun _ => True) c := by
  by_cases hvia : via = .update
  · subst hvia
    obtain ⟨⟨ran, committed, work, ts, qo, rf⟩, auto, mode, first, ro, sp⟩ := c
    obtain ⟨rfl, rfl, rfl, rfl⟩ := agree_iff.mp h
    obtain ⟨ran, committed, work⟩ := a
    simp only [Connection.runStatement, Prog.wp_bind, Prog.wp_get, Prog.wp_throwIf, wp_step, Engine.step]
    cases hstmt : w.stmt <;> cases work <;> cases s with
    | query rows => cases rows <;> simp [Contract.execute, agree_iff]
    | write x insert => cases qo <;> simp [Contract.execute, agree_iff]
  · exact (wp_runStatement hvia s w (fun c => agree_first c _) fun _ => Iff.rfl).mpr (exec_returns h s w _)

/-! ## The upgrade of a transaction -/

/-- What `tryEnforceTransactionMode` leaves of a connection it upgrades. -/
def Connection.upgraded (c : Connection ω) (en : Enforced) : Connection ω :=
  let e₁ := (c.engine.step .commit en.commit).2
  let e₂ := if en.pragma then { e₁ with queryOnly := false } else e₁
  { c with engine := (e₂.step (.begin .immediate) en.begin).2, currentTransactionMode := some .immediate }

theorem upgrade_eq (en : Enforced) : (do
    let _ ← Connection.step .commit en.commit
    Connection.setQueryOnly false en.pragma
    let _ ← Connection.step (.begin .immediate) en.begin
    Prog.modify fun c => { c with currentTransactionMode := some .immediate } : Connection.Op ω Unit) c =
      (some (), c.upgraded en) := by
  simp only [Connection.upgraded, Connection.setQueryOnly]
  cases en.pragma <;> rfl

theorem tryEnforce_eq (en : Enforced) : Connection.tryEnforceTransactionMode cfg en c =
    if cfg.explicitReadOnly && !c.autoCommit && c.currentTransactionMode.isSome then
      if c.isReadOnly cfg then Connection.setQueryOnly true en.pragma c
      else if c.currentTransactionMode = some .deferred then
        if c.firstStatementExecuted then (none, c) else (some (), c.upgraded en)
      else (some (), c)
    else (some (), c) := by
  show (if _ then _ else _ : Connection.Op ω Unit) c = _
  split
  · split
    · rfl
    · split
      · split
        · rfl
        · exact upgrade_eq en
      · rfl
  · rfl

theorem tryEnforce_upgradable (hu : c.upgradable cfg = true) (en : Enforced) :
    Connection.tryEnforceTransactionMode cfg en c =
      if c.firstStatementExecuted then (none, c) else (some (), c.upgraded en) := by
  simp only [Connection.upgradable, Bool.and_eq_true, Bool.not_eq_true', beq_iff_eq] at hu
  obtain ⟨⟨⟨hexp, hauto⟩, hro⟩, hmode⟩ := hu
  rw [tryEnforce_eq, hexp, hauto, hmode, hro]
  rfl

/-- Without an upgrade only `query_only` may change. -/
theorem tryEnforce_else (hu : c.upgradable cfg = false) (en : Enforced) :
    ∃ qo, Connection.tryEnforceTransactionMode cfg en c =
      (some (), { c with engine := { c.engine with queryOnly := qo } }) := by
  rw [tryEnforce_eq]
  split
  case isFalse => exact ⟨c.engine.queryOnly, rfl⟩
  next hon =>
    simp only [Bool.and_eq_true] at hon
    split
    · cases en.pragma
      · exact ⟨c.engine.queryOnly, rfl⟩
      · exact ⟨true, rfl⟩
    · next hro =>
      rw [if_neg fun hmode => by simp [Connection.upgradable, hon, hro, hmode] at hu]
      exact ⟨c.engine.queryOnly, rfl⟩

theorem upgradable_manual (hu : c.upgradable cfg = true) : c.autoCommit = false := by
  simp only [Connection.upgradable, Bool.and_eq_true, Bool.not_eq_true'] at hu
  exact hu.1.1.2

theorem upgraded_ran (c : Connection ω) (en : Enforced) : (c.upgraded en).engine.ran = c.engine.ran := by
  obtain ⟨⟨ran, committed, work, ts, qo, rf⟩, auto, mode, first, ro, sp⟩ := c
  cases work <;> cases qo <;> cases rf <;> cases hp : en.pragma <;> cases hc : en.commit <;> cases hb : en.begin <;>
    simp [Connection.upgraded, Engine.step, hp, hc, hb]

theorem Agree.open_of_manual (h : Agree c a) (hm : c.autoCommit = false) : ∃ work, a.work = some work := by
  rw [h.autoCommit] at hm
  cases hw : a.work with
  | none => rw [hw] at hm; cases hm
  | some work => exact ⟨work, rfl⟩

/-- Of an open transaction. -/
theorem upgraded_agree_iff {work : Work String ω} (h : Agree c a) (hw : a.work = some work) (en : Enforced) :
    Agree (c.upgraded en) a ↔ en.Keeps c := by
  obtain ⟨⟨ran, committed, work, ts, qo, rf⟩, auto, mode, first, ro, sp⟩ := c
  obtain ⟨rfl, rfl, rfl, rfl⟩ := agree_iff.mp h
  obtain ⟨ran, committed, work⟩ := a
  simp only at hw
  subst hw
  by_cases hwork : work = {}
  · subst hwork
    cases qo <;> cases rf <;> cases hp : en.pragma <;> cases hc : en.commit <;> cases hb : en.begin <;>
      simp [Connection.upgraded, Engine.step, Enforced.Keeps, agree_iff, hp, hc, hb]
  · cases qo <;> cases rf <;> cases hp : en.pragma <;> cases hc : en.commit <;> cases hb : en.begin <;>
      simp [Connection.upgraded, Engine.step, Enforced.Keeps, agree_iff, hp, hc, hb, hwork, Ne.symm hwork]

/-! ## Behind a statement -/

theorem execute_ran (a : Contract ω) (x : ω) (insert : Bool) : (a.execute (.write x insert)).ran = a.ran ++ [x] := by
  unfold Contract.execute
  cases a.work <;> rfl

/-- What runs no write does not undo that one has run. -/
theorem not_agree {c' : Connection ω} {s : Statement ω} (hs : s.isWrite = true) (h : c.engine.ran = (a.execute s).ran)
    (hr : c'.engine.ran = c.engine.ran) : ¬Agree c' a := by
  intro h'
  have hran := h'.ran.symm.trans (hr.trans h)
  cases s with
  | query rows => cases hs
  | write x insert => simp [execute_ran] at hran

/-- The query for the generated keys, where the upgrade before it has left `c`. -/
theorem query_iff {E : Connection ω → Prop} (hE : ∀ c' : Connection ω, c'.engine.ran = c.engine.ran → ¬E c') (ac : Bool)
    (x : Answer) : (Prog.tryFinally (Connection.exec (.statement (.query true)) ac { stmt := x })
      Connection.notifyFirstStatementExecuted).wp (fun _ c' => Agree c' a) E c ↔ x = .ok ∧ Agree c a := by
  rw [Prog.wp_tryFinally]
  change (Connection.exec (.statement (.query true)) ac { stmt := x }).wp
    (fun _ c' => Agree { c' with firstStatementExecuted := true } a)
    (fun c' => E { c' with firstStatementExecuted := true }) c ↔ _
  simp only [agree_first, wp_exec]
  cases x
  case ok => simp
  case refused => exact iff_of_false (hE _ rfl) nofun
  case lost => exact iff_of_false (hE _ rfl) nofun

theorem queryGeneratedKeys_iff (h : Agree c a) {E : Connection ω → Prop}
    (hE : ∀ c' : Connection ω, c'.engine.ran = c.engine.ran → ¬E c') (k : Keys) :
    (Connection.queryGeneratedKeys cfg k).wp (fun _ c' => Agree c' a) E c ↔
      k.stmt = .ok ∧ (c.upgradable cfg = true → c.firstStatementExecuted = false ∧ k.en.Keeps c) := by
  rw [Connection.queryGeneratedKeys]
  cases hu : c.upgradable cfg with
  | false =>
    obtain ⟨qo, he⟩ := tryEnforce_else hu k.en
    have hagree : Agree { c with engine := { c.engine with queryOnly := qo } } a :=
      ⟨h.ran, h.committed, h.work, h.autoCommit⟩
    rw [Prog.wp_bind_some he, Prog.wp_bind, Prog.wp_get]
    refine Prog.wp_bind.trans ((query_iff (c := { c with engine := { c.engine with queryOnly := qo } }) hE _
      k.stmt).trans ?_)
    simp [hagree]
  | true =>
    have he := tryEnforce_upgradable hu k.en
    cases hf : c.firstStatementExecuted with
    | true =>
      rw [hf, if_pos rfl] at he
      rw [Prog.wp_bind_none he]
      simpa using hE c rfl
    | false =>
      rw [hf, if_neg (by decide)] at he
      obtain ⟨work, hw⟩ := h.open_of_manual (upgradable_manual hu)
      have hquery := query_iff (c := c.upgraded k.en) (a := a) (fun c' hr => hE c' (hr.trans (upgraded_ran c k.en)))
      rw [Prog.wp_bind_some he, Prog.wp_bind, Prog.wp_get]
      refine Prog.wp_bind.trans ((hquery _ k.stmt).trans ?_)
      simp [upgraded_agree_iff h hw]

theorem wp_updateGeneratedKeys {s : Statement ω} {k : Keys} {Q E : Connection ω → Prop} :
    (Connection.updateGeneratedKeys cfg s k).wp (fun _ => Q) E c ↔
      if cfg.getGeneratedKeys then
        if k.cleared then if s.isInsert then (Connection.queryGeneratedKeys cfg k).wp (fun _ => Q) E c else Q c
        else E c
      else Q c := by
  unfold Connection.updateGeneratedKeys
  cases cfg.getGeneratedKeys with
  | false => exact Iff.rfl
  | true =>
    simp only [if_true]
    rw [Prog.wp_bind, Prog.wp_throwIf]
    cases k.cleared with
    | false => exact Iff.rfl
    | true => exact Prog.wp_onlyIf

/-- What comes behind a statement that has been run. -/
theorem behind_iff {s : Statement ω} (h : Agree c (a.execute s)) (via : Connection.Via) (k : Keys) :
    (Connection.behind cfg via s k).wp (fun _ c' => Agree c' (a.execute s)) (fun c' => Agree c' a) c ↔
      (s.isWrite = true → SoundBehind cfg c via s k) := by
  cases s with
  | query rows =>
    refine iff_of_true ?_ nofun
    have hc : Agree c a := h
    unfold Connection.behind
    cases via.keys
    · simpa [Statement.hasColumns, Statement.isWrite, Prog.wp_throwIf] using h
    · simp [wp_updateGeneratedKeys, Statement.isInsert, h, hc]
  | write x insert =>
    have hE : ∀ c' : Connection ω, c'.engine.ran = c.engine.ran → ¬Agree c' a := fun c' => not_agree rfl h.ran
    have hthrows := hE c rfl
    unfold Connection.behind SoundBehind
    cases hkeys : via.keys
    · simp only [Bool.false_eq_true, if_false, Prog.wp_throwIf]
      cases via <;> simp [Statement.hasColumns, Statement.isWrite, hthrows, h]
    · have hvia : via ≠ .query := fun hq => by rw [hq] at hkeys; cases hkeys
      simp only [if_true, wp_updateGeneratedKeys, queryGeneratedKeys_iff h hE]
      cases cfg.getGeneratedKeys <;> cases k.cleared <;> cases insert <;>
        simp [Statement.isWrite, Statement.isInsert, hvia, hthrows, h]

theorem run_behind_iff (h : Agree c a) (via : Connection.Via) (s : Statement ω) (w : Weather) (k : Keys) :
    (Connection.runStatement via s w >>= fun _ => Connection.behind cfg via s k).wp (fun _ c' => Agree c' (a.execute s))
      (fun c' => Agree c' a) c ↔ SoundRun cfg c via s w k := by
  have hrun := run_iff h via s w
  have hreturns := run_returns h via s w
  rw [Prog.wp_bind, SoundRun, ← hrun]
  unfold Prog.wp at hreturns ⊢
  rcases hr : Connection.runStatement via s w c with ⟨_ | _, c'⟩
  · simp
  · rw [hr] at hreturns
    simp only [true_imp_iff]
    exact (behind_iff hreturns via k).trans (and_iff_right hreturns).symm

/-! ## What no statement makes good again -/

/-- How much a transaction holds. -/
def size (w : Work String ω) : Nat := w.writes.length + w.marks.length

/-- The transaction has been lost, or ended, behind the contract's back. -/
structure Broken (cfg : SQLiteConfig) (c : Connection ω) (a : Contract ω) : Prop where
  upgradable : c.upgradable cfg = false
  manual : c.autoCommit = false
  ran : c.engine.ran = a.ran
  work : ∃ work, a.work = some work ∧ ∀ w, c.engine.work = some w → size w < size work

theorem Broken.not_agree (h : Broken cfg c a) : ¬Agree c a := by
  intro hagree
  obtain ⟨work, hw, hsize⟩ := h.work
  exact Nat.lt_irrefl _ (hsize work (hagree.work.trans hw))

/-- What a later call reads, and the loss of what is open, break nothing that is not broken. -/
theorem Broken.congr {c' : Connection ω} (h : Broken cfg c a) (hu : c'.upgradable cfg = c.upgradable cfg)
    (hm : c'.autoCommit = c.autoCommit) (hr : c'.engine.ran = c.engine.ran)
    (hw : c'.engine.work = c.engine.work ∨ c'.engine.work = none) : Broken cfg c' a := by
  obtain ⟨work, hwork, hsize⟩ := h.work
  refine ⟨hu.trans h.upgradable, hm.trans h.manual, hr.trans h.ran, work, hwork, fun w hw' => ?_⟩
  rcases hw with hw | hw
  · exact hsize w (hw.symm.trans hw')
  · cases hw.symm.trans hw'

theorem broken_first (c : Connection ω) (a : Contract ω) :
    Broken cfg { c with firstStatementExecuted := true } a ↔ Broken cfg c a :=
  ⟨fun h => h.congr rfl rfl rfl (.inl rfl), fun h => h.congr rfl rfl rfl (.inl rfl)⟩

/-- A write goes to both. -/
theorem Broken.write (h : Broken cfg c a) (x : ω) (insert : Bool) {e : Engine ω}
    (he : c.engine.apply (.statement (.write x insert)) = some e) :
    Broken cfg { c with engine := e } (a.execute (.write x insert)) := by
  obtain ⟨work, hw, hsize⟩ := h.work
  have hran := h.ran
  obtain ⟨⟨ran, committed, work', ts, qo, rf⟩, auto, mode, first, ro, sp⟩ := c
  cases qo with
  | true => cases he
  | false =>
    cases work' with
    | none =>
      cases he
      refine ⟨h.upgradable, h.manual, by simpa [execute_ran] using hran, work.write x, ?_, nofun⟩
      simp only [Contract.execute, hw]
    | some w =>
      cases he
      refine ⟨h.upgradable, h.manual, by simpa [execute_ran] using hran, work.write x, ?_, fun w' hw' => ?_⟩
      · simp only [Contract.execute, hw]
      · cases hw'
        have hlt := hsize w rfl
        simp only [size, Work.write, List.length_append, List.length_cons] at hlt ⊢
        omega

theorem exec_broken (h : Broken cfg c a) (s : Statement ω) (w : Weather) (atRows : Bool) :
    (Connection.exec (.statement s) c.autoCommit w).wp
      (fun rows c' => if atRows && rows then Broken cfg c' a else Broken cfg c' (a.execute s))
        (fun c' => Broken cfg c' a)
      c := by
  have hlost : Broken cfg { c with engine := c.engine.finish [] } a := h.congr rfl rfl rfl (.inr rfl)
  rw [h.manual, wp_exec]
  cases s with
  | query rows =>
    cases w.stmt with
    | ok => cases rows <;> simpa [Contract.execute] using h
    | refused => exact h
    | lost => exact hlost
  | write x insert =>
    cases happly : c.engine.apply (.statement (.write x insert)) with
    | none => exact h
    | some e =>
      cases w.stmt with
      | ok => simpa using h.write x insert happly
      | refused => exact h
      | lost => exact hlost

theorem run_broken (h : Broken cfg c a) (via : Connection.Via) (s : Statement ω) (w : Weather) :
    (Connection.runStatement via s w).wp (fun _ c' => Broken cfg c' (a.execute s)) (fun c' => Broken cfg c' a) c := by
  by_cases hvia : via = .update
  · subst hvia
    simp only [Connection.runStatement, Prog.wp_bind, Prog.wp_get, Prog.wp_throwIf, wp_step]
    rcases c.engine.step_cases (.statement s) w.stmt with hstep | hstep | ⟨e, happly, hstep⟩ <;> rw [hstep]
    · exact h
    · exact h.congr rfl rfl rfl (.inr rfl)
    · cases s with
      | query rows =>
        cases happly
        cases rows <;> exact h
      | write x insert => exact h.write x insert happly
  · exact (wp_runStatement hvia s w (fun c => broken_first c _) fun c => broken_first c _).mpr (exec_broken h s w _)

theorem behind_broken (h : Broken cfg c a) (via : Connection.Via) (s : Statement ω) (k : Keys) :
    (Connection.behind cfg via s k).wp (fun _ c' => Broken cfg c' a) (fun c' => Broken cfg c' a) c := by
  unfold Connection.behind
  cases via.keys with
  | false =>
    rw [if_neg (by decide), Prog.wp_throwIf]
    split <;> exact h
  | true =>
    rw [if_pos rfl, wp_updateGeneratedKeys]
    split
    · split
      · split
        · obtain ⟨qo, he⟩ := tryEnforce_else h.upgradable k.en
          have hqo : Broken cfg { c with engine := { c.engine with queryOnly := qo } } a := h.congr rfl rfl rfl
            (.inl rfl)
          have hquery := exec_broken hqo (.query true) { stmt := k.stmt } false
          rw [Connection.queryGeneratedKeys, Prog.wp_bind_some he, Prog.wp_bind, Prog.wp_get]
          refine Prog.wp_bind.mpr (Prog.wp_tryFinally.mpr ?_)
          exact Prog.wp_mono hquery (fun _ c' hc => (broken_first c' a).mpr hc) fun c' hc => (broken_first c' a).mpr hc
        · exact h
      · exact h
    · exact h

theorem run_behind_broken (h : Broken cfg c a) (via : Connection.Via) (s : Statement ω) (w : Weather) (k : Keys) :
    ¬(Connection.runStatement via s w >>= fun _ => Connection.behind cfg via s k).wp
      (fun _ c' => Agree c' (a.execute s)) (fun c' => Agree c' a) c := by
  intro hkept
  have hrun := run_broken h via s w
  unfold Prog.wp at hrun
  rcases hr : Connection.runStatement via s w c with ⟨_ | _, c'⟩ <;> rw [hr] at hrun
  · exact hrun.not_agree ((Prog.wp_bind_none hr).mp hkept)
  · have hbehind := behind_broken hrun via s k
    have hkept := (Prog.wp_bind_some hr).mp hkept
    unfold Prog.wp at hbehind hkept
    rcases hb : Connection.behind cfg via s k c' with ⟨_ | _, c''⟩ <;> rw [hb] at hbehind hkept
    · cases s with
      | query rows => exact hbehind.not_agree hkept
      | write x insert => exact not_agree (c := c'') (s := .write x insert) rfl hbehind.ran rfl hkept
    · exact hbehind.not_agree hkept

/-- An upgrade that fails, or comes in the midst of a transaction. -/
theorem upgraded_broken {work : Work String ω} (h : Agree c a) (hw : a.work = some work) {en : Enforced}
    (hne : ¬en.Keeps c) : Broken cfg (c.upgraded en) a := by
  have hmanual : c.autoCommit = false := by rw [h.autoCommit, hw]; rfl
  refine ⟨by simp [Connection.upgradable, Connection.upgraded], hmanual, (upgraded_ran c en).trans h.ran, work, hw,
    fun w hw' => ?_⟩
  have hwork : c.engine.work = some work := h.work.trans hw
  obtain ⟨⟨ran, committed, mine, ts, qo, rf⟩, auto, mode, first, ro, sp⟩ := c
  cases hwork
  have hpos : work ≠ {} → 0 < size work := by
    intro hne
    obtain ⟨writes, marks⟩ := work
    cases writes with
    | nil =>
      cases marks with
      | nil => exact absurd rfl hne
      | cons => exact Nat.zero_lt_succ _
    | cons y ys =>
      simp only [size, List.length_cons]
      omega
  have hsize : size (ω := ω) {} = 0 := rfl
  cases hp : en.pragma <;> cases qo <;> cases rf <;> cases hc : en.commit <;> cases hb : en.begin <;>
    simp_all [Connection.upgraded, Engine.step, Enforced.Keeps]

/-! ## Statements, with what comes before and behind -/

theorem enforce_of_enforces {via : Connection.Via} (hvia : via.enforces = true) (en : Enforced) :
    (Connection.enforce cfg via en : Connection.Op ω Unit) = Connection.tryEnforceTransactionMode cfg en := by
  rw [Connection.enforce, Prog.onlyIf, if_pos hvia]

theorem enforce_of_not {via : Connection.Via} (hvia : ¬via.enforces = true) (en : Enforced) :
    Connection.enforce cfg via en c = (some (), c) := by
  rw [Connection.enforce, Prog.onlyIf, if_neg hvia]
  rfl

/-- A statement: what refuses it, what comes before it, and what is left of it. -/
theorem wp_execute {Q : Unit → Connection ω → Prop} {E : Connection ω → Prop} {via : Connection.Via}
    {s : Statement ω} {en : Enforced} {w : Weather} {k : Keys} :
    (program cfg (.execute via s en w k)).wp Q E c ↔ if via.refuses s then E c else
      (Connection.enforce cfg via en >>= fun _ => Connection.runStatement via s w >>= fun _ =>
        Connection.behind cfg via s k).wp Q E c :=
  Prog.wp_bind.trans Prog.wp_throwIf

theorem kept_execute (h : Agree c a) (via : Connection.Via) (s : Statement ω) (en : Enforced) (w : Weather) (k : Keys) :
    Kept cfg c a (.execute via s en w k) ↔ Sound cfg c (.execute via s en w k) := by
  rw [Kept, wp_execute, Sound, Contract.next]
  cases via.refuses s with
  | true => simpa using h
  | false =>
    simp only [Bool.false_eq_true, if_false, true_imp_iff]
    by_cases hvia : via.enforces = true
    case neg =>
      rw [Prog.wp_bind_some (enforce_of_not hvia en), enforce_of_not hvia en, run_behind_iff h]
      simp [hvia]
    rw [enforce_of_enforces hvia]
    cases hu : c.upgradable cfg with
    | false =>
      obtain ⟨qo, he⟩ := tryEnforce_else hu en
      have hagree : Agree { c with engine := { c.engine with queryOnly := qo } } a :=
        ⟨h.ran, h.committed, h.work, h.autoCommit⟩
      rw [Prog.wp_bind_some he, he, run_behind_iff hagree]
      simp
    | true =>
      have he := tryEnforce_upgradable hu en
      cases hf : c.firstStatementExecuted with
      | true =>
        rw [hf, if_pos rfl] at he
        rw [Prog.wp_bind_none he, he]
        simpa using h
      | false =>
        rw [hf, if_neg (by decide)] at he
        rw [Prog.wp_bind_some he, he]
        obtain ⟨work, hw⟩ : ∃ work, a.work = some work := h.open_of_manual (upgradable_manual hu)
        by_cases hup : en.Keeps c
        · rw [run_behind_iff ((upgraded_agree_iff h hw en).mpr hup)]
          simp [hvia, hup]
        · exact iff_of_false (run_behind_broken (upgraded_broken h hw hup) via s w k) fun hs => hup (hs.1 hvia rfl rfl)

theorem kept_iff (h : Agree c a) : ∀ l : Label ω, Kept cfg c a l ↔ Sound cfg c l
  | .setAutoCommit ac w => kept_setAutoCommit h ac w
  | .commit w₁ w₂ => kept_commit h w₁ w₂
  | .rollback w₁ w₂ => kept_rollback h w₁ w₂
  | .setSavepoint name w => kept_setSavepoint h name w
  | .releaseSavepoint name w => kept_releaseSavepoint h name w
  | .rollbackTo name w => kept_rollbackTo h name w
  | .setReadOnly ro => kept_setReadOnly h ro
  | .execute via s en w k => kept_execute h via s en w k

/-! ## Runs -/

theorem step_agree_iff {x x' : Connection ω × Contract ω} {l : Label ω} (hs : step cfg x l = some x') :
    Agree x'.1 x'.2 ↔ Kept cfg x.1 x.2 l := by
  simp only [step] at hs
  unfold Kept Prog.wp
  split at hs
  · next heq =>
    cases hs
    rw [heq]
  · next heq =>
    cases hs
    rw [heq]

end

theorem opened_agree (cfg : SQLiteConfig) (readOnlyFile : Bool) : Agree (opened cfg readOnlyFile : Connection ω) {} :=
  ⟨rfl, rfl, rfl, rfl⟩

theorem agree_step {cfg : SQLiteConfig} {x x' : Connection ω × Contract ω} {l : Label ω} (hx : Agree x.1 x.2)
    (hl : Sound cfg x.1 l) (hs : step cfg x l = some x') : Agree x'.1 x'.2 :=
  (step_agree_iff hs).mpr ((kept_iff hx l).mpr hl)

theorem agree_run {cfg : SQLiteConfig} {readOnlyFile : Bool} {ls : List (Label ω)}
    (hls : EveryStep (step cfg) (fun x l => Sound cfg x.1 l) (opened cfg readOnlyFile, {}) ls) :
    EveryState (step cfg) (fun x => Agree x.1 x.2) (opened cfg readOnlyFile, {}) ls :=
  everyState_of_invariant (fun _ _ _ => agree_step) (fun _ => id) (opened_agree cfg readOnlyFile) hls

end JdbcTransactions

end Sqlol

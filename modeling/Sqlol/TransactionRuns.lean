/-
Two things a connection does over a whole run.

`savepoint_restores`: between the setting of a savepoint and the rollback to it there may be
any sound calls that leave it standing, other savepoints and earlier rollbacks to it among
them, and calls that throw; SQLite has open what was open before. A savepoint of the same name
that stands inside it is the one a rollback goes back to.

`refused_commit_run`: a commit that is refused behind a statement of an auto-commit connection.
`ensureAutoCommit` leaves SQLite's transaction open, and the next one takes the failing `begin`
to mean that the caller has begun one. From there on writes are accepted and not committed.
-/
import Sqlol.TransactionContract

namespace Sqlol

namespace JdbcTransactions

open Savepoints (Work)

variable {ω : Type}

/-! ## Going back to a savepoint -/

/-- A call between the setting of a savepoint on `w₀` and the way back to it: it throws, or it does not end
the transaction, and the savepoint it names has been set since or is the same. -/
def Between (cfg : SQLiteConfig) (w₀ : Work String ω) (key : String) (x : Connection ω × Contract ω) (l : Label ω) :
    Prop :=
  (program cfg l x.1).1 = some () → match l with
    | .setAutoCommit ac _ => ac = false
    | .commit _ _ | .rollback _ _ => False
    | .releaseSavepoint name _ => ∀ w, x.2.work = some w → name.toLower ∈ w₀.inner w
    | .rollbackTo name _ => ∀ w, x.2.work = some w → name.toLower ∈ w₀.inner w ∨ name.toLower = key
    | .setSavepoint _ _ | .setReadOnly _ | .execute _ _ _ _ _ => True

section
variable {cfg : SQLiteConfig} {x x' : Connection ω × Contract ω} {w₀ : Work String ω} {key : String} {l : Label ω}

theorem step_cases (h : step cfg x l = some x') :
    ((program cfg l x.1).1 = some () ∧ x'.2 = x.2.next (i32 (x.1.savePoint + 1)) l) ∨ x'.2 = x.2 := by
  unfold step at h
  split at h
  · next heq =>
    cases h
    exact .inl ⟨congrArg Prod.fst heq, rfl⟩
  · cases h
    exact .inr rfl

/-- The savepoint and what was there when it was set, and nothing committed since. -/
structure Held (w₀ : Work String ω) (key : String) (committed : List ω) (a : Contract ω) : Prop where
  since : ∃ w, a.work = some w ∧ w₀.Since key w
  committed : a.committed = committed

theorem held_step {committed : List ω} (hs : Held w₀ key committed x.2) (hl : Between cfg w₀ key x l)
    (h : step cfg x l = some x') : Held w₀ key committed x'.2 := by
  obtain ⟨⟨w, hw, hsince⟩, hc⟩ := hs
  rcases step_cases h with ⟨hreturned, hnext⟩ | hsame
  case inr => exact ⟨⟨w, by rw [hsame]; exact hw, hsince⟩, by rw [hsame]; exact hc⟩
  have hl := hl hreturned
  rw [hnext]
  cases l with
  | setAutoCommit ac _ =>
    cases hl
    have hsame : x.2.setAutoCommit false = x.2 := by simp only [Contract.setAutoCommit, hw]
    exact ⟨⟨w, by rw [Contract.next, hsame]; exact hw, hsince⟩, by rw [Contract.next, hsame]; exact hc⟩
  | commit _ _ => exact hl.elim
  | rollback _ _ => exact hl.elim
  | setSavepoint name _ => exact ⟨⟨_, by rw [Contract.next, hw]; rfl, hsince.set _⟩, hc⟩
  | releaseSavepoint name _ =>
    refine ⟨⟨(w.release name.toLower).getD w, by rw [Contract.next, hw]; rfl, ?_⟩, hc⟩
    cases hr : w.release name.toLower with
    | none => exact hsince
    | some w' => exact hsince.release (hl w hw) hr
  | rollbackTo name _ =>
    refine ⟨⟨(w.rollbackTo name.toLower).getD w, by rw [Contract.next, hw]; rfl, ?_⟩, hc⟩
    by_cases hinner : name.toLower ∈ w₀.inner w
    · cases hr : w.rollbackTo name.toLower with
      | none => exact hsince
      | some w' => exact hsince.rollbackTo hinner hr
    · -- The savepoint itself, and what was there when it was set.
      obtain rfl := (hl w hw).resolve_left hinner
      rw [hsince.back hinner]
      exact Work.since_set w₀ _
  | setReadOnly _ => exact ⟨⟨w, hw, hsince⟩, hc⟩
  | execute _ s _ _ _ =>
    cases s with
    | query _ => exact ⟨⟨w, hw, hsince⟩, hc⟩
    | write y _ => exact ⟨⟨w.write y, by simp only [Contract.next, Contract.execute, hw], hsince.write y⟩,
        by simp only [Contract.next, Contract.execute, hw]; exact hc⟩

end

section
variable {cfg : SQLiteConfig} {c : Connection ω} {a : Contract ω}

/-- A savepoint that is set is one SQLite has been asked for, and has answered. -/
theorem setSavepoint_sound {name : Option String} {w : Weather}
    (hreturned : (program cfg (.setSavepoint name w) c).1 = some ()) :
    Connection.isIdentifier (i32 (c.savePoint + 1)) name = true ∧ w.stmt = .ok := by
  have hwp : (program cfg (.setSavepoint name w)).wp
      (fun _ _ => Connection.isIdentifier (i32 (c.savePoint + 1)) name = true ∧ w.stmt = .ok) (fun _ => True) c := by
    obtain ⟨⟨ran, committed, work, ts, qo, rf⟩, auto, mode, first, ro, sp⟩ := c
    simp only [program, Connection.setSavepoint, Prog.wp_bind, Prog.wp_get, Prog.wp_modify, Prog.wp_throwIf]
    cases Connection.isIdentifier (i32 (sp + 1)) name <;> cases hstmt : w.stmt <;> cases work <;> simp [hstmt]
  rcases hp : program cfg (.setSavepoint name w) c with ⟨r, c'⟩
  rw [hp] at hreturned
  cases hreturned
  exact Prog.wp_returned
    (Q := fun _ _ => Connection.isIdentifier (i32 (c.savePoint + 1)) name = true ∧ w.stmt = .ok) hwp hp

theorem setSavepoint_held (h : Agree c a) {name : Option String} {w : Weather}
    (hreturned : (program cfg (.setSavepoint name w) c).1 = some ())
    {x : Connection ω × Contract ω} (hs : step cfg (c, a) (.setSavepoint name w) = some x) :
    Agree x.1 x.2 ∧ Held (c.engine.work.getD {})
      (Connection.getSavepointName (i32 (c.savePoint + 1)) name).toLower c.engine.committed x.2 := by
  obtain ⟨hname, hw⟩ := setSavepoint_sound hreturned
  have hsound : Sound cfg c (.setSavepoint name w) := by
    simp only [Sound, hname, hw]
    split
    · exact ⟨trivial, trivial⟩
    · exact fun _ hthrew => by cases hthrew
  refine ⟨agree_step h hsound hs, ?_⟩
  simp only [step] at hs
  split at hs
  · cases hs
    exact ⟨⟨_, rfl, by rw [h.work]; exact Work.since_set _ _⟩, h.committed.symm⟩
  · next heq =>
    rw [heq] at hreturned
    cases hreturned

/-- Where a savepoint still stands, the innermost of its name, going back to it succeeds. -/
theorem rollbackTo_held {w₀ : Work String ω} {savepoint : String} {committed : List ω} (h : Agree c a)
    (hheld : Held w₀ savepoint.toLower committed a)
    (hinner : ∀ w, a.work = some w → savepoint.toLower ∉ w₀.inner w) {w : Weather} (hw : w.stmt = .ok) :
    (program cfg (.rollbackTo savepoint w) c).2.engine.work = some (w₀.set savepoint.toLower) ∧
      (program cfg (.rollbackTo savepoint w) c).2.engine.committed = committed := by
  obtain ⟨⟨work, hwork, hsince⟩, hcommitted⟩ := hheld
  have hback := hsince.back (hinner work hwork)
  obtain ⟨⟨ran, mine, work', ts, qo, rf⟩, auto, mode, first, ro, sp⟩ := c
  obtain ⟨rfl, rfl, rfl, rfl⟩ := agree_iff.mp h
  simp [program, Connection.rollbackTo, Connection.exec, Connection.step, Connection.ensureAutoCommit, Engine.step,
    Prog.get, Prog.throwIf, bind, pure, hw, hwork, hback, hcommitted]

end

/-- A savepoint set in a sound run, any sound calls between, and a rollback to it: what is open in
SQLite is what was open before, and nothing has been committed. -/
theorem savepoint_restores (cfg : SQLiteConfig) (readOnlyFile : Bool) {before between : List (Label ω)} {name : Option String}
    {w w' : Weather}
    {x x₁ x₂ x₃ : Connection ω × Contract ω} {savepoint : String}
    (hname : savepoint = Connection.getSavepointName (i32 (x.1.savePoint + 1)) name)
    (hbefore : run (step cfg) (opened cfg readOnlyFile, {}) before = some x)
    (hsound : EveryStep (step cfg) (fun x l => Sound cfg x.1 l) (opened cfg readOnlyFile, {}) before)
    (hset : step cfg x (.setSavepoint name w) = some x₁)
    (hreturned : (program cfg (.setSavepoint name w) x.1).1 = some ())
    (hbetween : run (step cfg) x₁ between = some x₂)
    (hsound' : EveryStep (step cfg) (fun y l => Sound cfg y.1 l ∧
      Between cfg (x.1.engine.work.getD {}) savepoint.toLower y l) x₁ between)
    (hinner : ∀ w, x₂.2.work = some w → savepoint.toLower ∉ (x.1.engine.work.getD {}).inner w)
    (hback : step cfg x₂ (.rollbackTo savepoint w') = some x₃) (hw' : w'.stmt = .ok) :
    x₃.1.engine.work = some ((x.1.engine.work.getD {}).set savepoint.toLower) ∧
      x₃.1.engine.committed = x.1.engine.committed := by
  have hagree : Agree x.1 x.2 := (agree_run hsound).last hbefore
  obtain ⟨hagree₁, hheld₁⟩ := setSavepoint_held hagree hreturned hset
  rw [← hname] at hheld₁
  obtain ⟨hagree₂, hheld₂⟩ := EveryState.last (everyState_of_invariant
    (I := fun y => Agree y.1 y.2 ∧ Held (x.1.engine.work.getD {}) savepoint.toLower x.1.engine.committed y.2)
    (fun y l y' hy hl hs => ⟨agree_step hy.1 hl.1 hs, held_step hy.2 hl.2 hs⟩) (fun _ => id) ⟨hagree₁, hheld₁⟩
      hsound') hbetween
  have hback' : x₃.1 = (program cfg (.rollbackTo savepoint w') x₂.1).2 := by
    unfold step at hback
    split at hback <;> next heq => cases hback; rw [heq]
  rw [hback']
  exact rollbackTo_held hagree₂ hheld₂ hinner hw'

/-- A connection in manual mode, with the savepoint it has counted. -/
def manual (ran : List Nat) (work : Work String Nat) (savePoint : Int) : Connection Nat × Contract Nat :=
  ({ engine := { ran := ran, work := some work }, autoCommit := false,
     currentTransactionMode := some .deferred, savePoint := savePoint },
   { ran := ran, work := some work })

theorem manual_rollbackTo {ran : List Nat} {work work' : Work String Nat} {n : Int} {name : String}
    (h : work.rollbackTo name.toLower = some work') :
    step {} (manual ran work n) (.rollbackTo name {}) = some (manual ran work' n) := by
  simp [step, program, manual, Connection.rollbackTo, Connection.exec, Connection.step, Connection.ensureAutoCommit,
    Engine.step, Engine.apply, Contract.next, Prog.get, Prog.throwIf, bind, pure, h]

theorem manual_write_sound (ran : List Nat) (work : Work String Nat) (n : Int) (x : Nat) :
    Sound {} (manual ran work n).1 (.execute .prepared (.write x false) {} {} {}) :=
  fun _ => ⟨nofun, fun _ => ⟨nofun, fun _ _ => ⟨nofun, fun _ _ => ⟨rfl, nofun⟩⟩⟩⟩

/-- Writes behind a savepoint go, with a rollback to it between them; the one before it stays. -/
theorem write_undone :
    (manual [1, 2, 3] (Work.set { writes := [1] } "a".toLower) 1).1.engine.work =
        some (Work.set { writes := [1] } "a".toLower) ∧
      (manual [1, 2, 3] (Work.set { writes := [1] } "a".toLower) 1).1.engine.committed = [] := by
  have hbefore : run (step {}) (opened {} false, {}) [.setAutoCommit false {}, .execute .prepared (.write 1 false) {} {} {}] =
    some (manual [1] { writes := [1] } 0) := rfl
  have hsound : EveryStep (step {}) (fun x l => Sound {} x.1 l) (opened {} false, {})
      [.setAutoCommit false {}, .execute .prepared (.write 1 false) {} {} {}] := by
    refine ⟨fun _ => ⟨rfl, rfl⟩, fun x hx => ?_⟩
    cases hx
    exact ⟨manual_write_sound [] {} 0 1, fun _ _ => trivial⟩
  have hset : step {} (manual [1] { writes := [1] } 0) (.setSavepoint (some "a") {}) =
    some (manual [1] (Work.set { writes := [1] } "a".toLower) 1) := rfl
  have hlower : "A".toLower = "a".toLower := by
    show "A".map Char.toLower = "a".map Char.toLower
    rw [← String.toList_inj, String.toList_map, String.toList_map]
    decide
  have hback : ∀ name, name.toLower = "a".toLower → ∀ x ran,
      step {} (manual ran ((Work.set { writes := [1] } "a".toLower).write x) 1) (.rollbackTo name {}) =
      some (manual ran (Work.set { writes := [1] } "a".toLower) 1) := fun name hname x ran =>
    manual_rollbackTo (hname ▸ ((Work.since_set _ _).write x).back (by simp [Work.inner_write]))
  have hwrite : step {} (manual [1] (Work.set { writes := [1] } "a".toLower) 1)
    (.execute .prepared (.write 2 false) {} {} {}) =
    some (manual [1, 2] ((Work.set { writes := [1] } "a".toLower).write 2) 1) := rfl
  have hto := hback "A" hlower 2 [1, 2]
  have hbetween : run (step {}) (manual [1] (Work.set { writes := [1] } "a".toLower) 1)
      [.execute .prepared (.write 2 false) {} {} {}, .rollbackTo "A" {}, .execute .prepared (.write 3 false) {} {} {}] =
    some (manual [1, 2, 3] ((Work.set { writes := [1] } "a".toLower).write 3) 1) := by
    rw [run, hwrite, Option.bind_some, run, hto]
    rfl
  refine savepoint_restores {} false rfl hbefore hsound hset rfl hbetween ?_ ?_ (hback "a" rfl 3 _) rfl
  · refine ⟨⟨manual_write_sound _ _ _ 2, fun _ => trivial⟩, fun x hx => ?_⟩
    obtain rfl := Option.some.inj (hwrite.symm.trans hx)
    refine ⟨⟨fun _ _ _ _ hlost => (by cases hlost), fun _ _ _ => .inr hlower⟩, fun y hy => ?_⟩
    obtain rfl := Option.some.inj (hto.symm.trans hy)
    exact ⟨⟨manual_write_sound _ _ _ 3, fun _ => trivial⟩, fun _ _ => trivial⟩
  · intro work hwork
    cases hwork
    exact Work.inner_write { writes := [1] } "a".toLower 3 ▸ List.not_mem_nil

/-! ## A commit refused behind a statement -/

/-- A call, and the connection behind it. -/
def after (cfg : SQLiteConfig) (c : Connection ω) (l : Label ω) : Option (Connection ω) := some (program cfg l c).2

/-- The flag says that the connection commits by itself, and SQLite has a transaction open. -/
structure Stuck (committed : List ω) (c : Connection ω) : Prop where
  autoCommit : c.autoCommit = true
  work : ∃ work, c.engine.work = some work
  committed : c.engine.committed = committed

/-- A call that is no way out. -/
def Stays : Label ω → Prop
  | .setAutoCommit ac _ => ac = true
  | .setSavepoint _ _ => False
  | .execute _ _ _ w k => w.stmt ≠ .lost ∧ k.stmt ≠ .lost
  | .commit _ _ | .rollback _ _ | .releaseSavepoint _ _ | .rollbackTo _ _ | .setReadOnly _ => True

/-- Nothing is in the way of a statement, or of what comes behind it. -/
structure Clear (c : Connection ω) (via : Connection.Via) (s : Statement ω) (w : Weather) (k : Keys) : Prop where
  refuses : via.refuses s = false
  stmt : w.stmt = .ok
  rejects : c.rejects s = false
  prepared : w.prepared = true
  batch : via = .batch → s ≠ .query true
  query : via = .query → s.isWrite = false
  cleared : k.cleared = true
  keys : k.stmt = .ok

/-- Statements return as ever, and there is nothing to commit or to roll back for the caller. -/
def Silent (cfg : SQLiteConfig) (c : Connection ω) : Label ω → Prop
  | .execute via s en w k => Clear c via s w k → (program cfg (.execute via s en w k) c).1 = some ()
  | .commit w₁ w₂ => (program cfg (.commit w₁ w₂) c).1 = none
  | .rollback w₁ w₂ => (program cfg (.rollback w₁ w₂) c).1 = none
  | .setAutoCommit _ _ | .setSavepoint _ _ | .releaseSavepoint _ _ | .rollbackTo _ _ | .setReadOnly _ => True

section
variable {cfg : SQLiteConfig} {c : Connection ω} {committed : List ω}

theorem ensure_open {Q : Unit → Connection ω → Prop} {E : Connection ω → Prop} {w : Weather} {work : Work String ω}
    (hw : c.engine.work = some work) :
    (Connection.ensureAutoCommit true w).wp Q E c ↔ if w.prepared then Q () c else E c := by
  cases hp : w.prepared <;>
    simp [Connection.ensureAutoCommit, Prog.wp_bind, Prog.wp_throwIf, wp_step, Engine.step, hp, hw]

theorem stuck_iff : Stuck committed c ↔
    c.autoCommit = true ∧ (∃ work, c.engine.work = some work) ∧ c.engine.committed = committed :=
  ⟨fun h => ⟨h.autoCommit, h.work, h.committed⟩, fun ⟨ha, hw, hc⟩ => ⟨ha, hw, hc⟩⟩

/-- Where a statement leads that SQLite does not answer with a rollback. -/
theorem Stuck.run (h : Stuck committed c) {via : Connection.Via} {s : Statement ω} (hv : via.refuses s = false)
    {w : Weather} (hl : w.stmt ≠ .lost) :
    (Connection.runStatement via s w).wp (fun _ => Stuck committed)
      (fun c' => Stuck committed c' ∧
        ¬(w.stmt = .ok ∧ c.rejects s = false ∧ w.prepared = true ∧ (via = .batch → s ≠ .query true))) c := by
  obtain ⟨⟨ran, mine, work, ts, qo, rf⟩, auto, mode, first, ro, sp⟩ := c
  obtain ⟨rfl, ⟨work, rfl⟩, rfl⟩ := stuck_iff.mp h
  have hprepared : w.prepared = true ∨ w.prepared = false := by cases w.prepared <;> simp
  cases via <;> cases s with
  | query rows =>
    cases rows <;> cases hstmt : w.stmt <;> rcases hprepared with hp | hp <;>
      simp [Connection.runStatement, Connection.notifyFirstStatementExecuted, Prog.wp_bind, Prog.wp_tryFinally,
        Prog.wp_throwIf, wp_step, Engine.step, ensure_open, stuck_iff, Connection.rejects, Statement.isWrite,
        Connection.Via.refuses, Statement.hasColumns, hstmt, hp] at hl hv ⊢
  | write x insert =>
    cases qo <;> cases hstmt : w.stmt <;> rcases hprepared with hp | hp <;>
      simp [Connection.runStatement, Connection.notifyFirstStatementExecuted, Prog.wp_bind, Prog.wp_tryFinally,
        Prog.wp_throwIf, wp_step, Engine.step, ensure_open, stuck_iff, Connection.rejects, Statement.isWrite,
        Connection.Via.refuses, Statement.hasColumns, hstmt, hp] at hl hv ⊢

theorem tryEnforce_auto (hc : c.autoCommit = true) (en : Enforced) :
    Connection.tryEnforceTransactionMode cfg en c = (some (), c) := by
  rw [tryEnforce_eq, hc]
  simp

theorem enforce_auto (hc : c.autoCommit = true) (via : Connection.Via) (en : Enforced) :
    Connection.enforce cfg via en c = (some (), c) := by
  by_cases hvia : via.enforces = true
  · rw [enforce_of_enforces hvia, tryEnforce_auto hc]
  · exact enforce_of_not hvia en

/-- What comes behind the statement. -/
theorem Stuck.behind (h : Stuck committed c) (via : Connection.Via) (s : Statement ω) {k : Keys} (hl : k.stmt ≠ .lost) :
    (Connection.behind cfg via s k).wp (fun _ => Stuck committed)
      (fun c' => Stuck committed c' ∧ ¬((via = .query → s.isWrite = false) ∧ k.cleared = true ∧ k.stmt = .ok)) c := by
  have hfirst : Stuck committed { c with firstStatementExecuted := true } := ⟨h.autoCommit, h.work, h.committed⟩
  unfold Connection.behind
  cases hkeys : via.keys with
  | false =>
    rw [if_neg (by decide), Prog.wp_throwIf]
    split
    · next hbad => exact ⟨h, fun hclear => by simp_all [Statement.hasColumns]⟩
    · exact h
  | true =>
    rw [if_pos rfl, wp_updateGeneratedKeys]
    split
    case isFalse => exact h
    split
    case isFalse => next hcleared => exact ⟨h, fun hclear => hcleared hclear.2.1⟩
    split
    case isFalse => exact h
    rw [Connection.queryGeneratedKeys, Prog.wp_bind_some (tryEnforce_auto h.autoCommit k.en), Prog.wp_bind, Prog.wp_get]
    refine Prog.wp_bind.mpr (Prog.wp_tryFinally.mpr (wp_exec.mpr ?_))
    cases hstmt : k.stmt with
    | ok => exact hfirst
    | refused => exact ⟨hfirst, fun hclear => by cases hclear.2.2⟩
    | lost => exact absurd hstmt hl

/-- What is for manual mode only throws. -/
theorem endAndBegin_auto (hc : c.autoCommit = true) (sql : Sql ω) (w₁ w₂ : Weather) :
    Connection.endAndBegin cfg sql w₁ w₂ c = (none, c) := by
  simp [Connection.endAndBegin, Prog.get, Prog.throwIf, Prog.throw, bind, hc]

theorem Stuck.execute (h : Stuck committed c) (via : Connection.Via) (s : Statement ω) (en : Enforced) {w : Weather}
    {k : Keys} (hw : w.stmt ≠ .lost) (hk : k.stmt ≠ .lost) :
    (program cfg (.execute via s en w k)).wp (fun _ => Stuck committed)
      (fun c' => Stuck committed c' ∧ ¬Clear c via s w k) c := by
  rw [wp_execute]
  split
  · next hrefuses => exact ⟨h, fun hclear => by rw [hclear.refuses] at hrefuses; cases hrefuses⟩
  · next hrefuses =>
    rw [Prog.wp_bind_some (enforce_auto h.autoCommit via en)]
    refine Prog.wp_bind.mpr (Prog.wp_mono (h.run (by simpa using hrefuses) hw) (fun _ c' hc' => ?_) fun c' hc' => ?_)
    · refine Prog.wp_mono (hc'.behind via s hk) (fun _ _ => id) fun c'' hc'' => ⟨hc''.1, fun hclear => ?_⟩
      exact hc''.2 ⟨hclear.query, hclear.cleared, hclear.keys⟩
    · exact ⟨hc'.1, fun hclear => hc'.2 ⟨hclear.stmt, hclear.rejects, hclear.prepared, hclear.batch⟩⟩

theorem Stuck.program (h : Stuck committed c) {l : Label ω} (hl : Stays l) :
    Stuck committed (program cfg l c).2 ∧ Silent cfg c l := by
  have hauto := h.autoCommit
  cases l with
  | setAutoCommit ac w =>
    cases hl
    refine ⟨?_, trivial⟩
    have hsame : (JdbcTransactions.program cfg (.setAutoCommit true w) c).2 = c := by
      simp [JdbcTransactions.program, Connection.setAutoCommit, Prog.get, bind, hauto, pure]
    rw [hsame]
    exact h
  | setSavepoint name w => exact hl.elim
  | commit w₁ w₂ =>
    have hthrows : JdbcTransactions.program cfg (.commit w₁ w₂) c = (none, c) := endAndBegin_auto hauto _ w₁ w₂
    rw [hthrows]
    exact ⟨h, congrArg Prod.fst hthrows⟩
  | rollback w₁ w₂ =>
    have hthrows : JdbcTransactions.program cfg (.rollback w₁ w₂) c = (none, c) := endAndBegin_auto hauto _ w₁ w₂
    rw [hthrows]
    exact ⟨h, congrArg Prod.fst hthrows⟩
  | releaseSavepoint name w =>
    refine ⟨?_, trivial⟩
    have hthrows : JdbcTransactions.program cfg (.releaseSavepoint name w) c = (none, c) := by
      simp [JdbcTransactions.program, Connection.releaseSavepoint, Prog.get, Prog.throwIf, Prog.throw, bind, hauto]
    rw [hthrows]
    exact h
  | rollbackTo name w =>
    refine ⟨?_, trivial⟩
    have hthrows : JdbcTransactions.program cfg (.rollbackTo name w) c = (none, c) := by
      simp [JdbcTransactions.program, Connection.rollbackTo, Prog.get, Prog.throwIf, Prog.throw, bind, hauto]
    rw [hthrows]
    exact h
  | setReadOnly ro =>
    refine ⟨Prog.wp_state (E := Stuck committed) ?_, trivial⟩
    have hro : Stuck committed { c with readOnly := ro } := ⟨h.autoCommit, h.work, h.committed⟩
    simp only [JdbcTransactions.program, Connection.setReadOnly, Prog.wp_bind, Prog.wp_get]
    split <;> rw [Prog.wp_bind, Prog.wp_throwIf] <;> split
    all_goals first | exact h | exact hro
  | execute via s en w k =>
    have hexec : (JdbcTransactions.program cfg (.execute via s en w k)).wp (fun _ => Stuck committed)
        (fun c' => Stuck committed c' ∧ ¬Clear c via s w k) c := h.execute via s en hl.1 hl.2
    refine ⟨Prog.wp_state (Prog.wp_mono hexec (fun _ _ => id) fun _ => And.left), fun hclear => ?_⟩
    unfold Prog.wp at hexec
    split at hexec
    · next heq => exact congrArg Prod.fst heq
    · exact absurd hclear hexec.2

/-- The refusal itself. -/
theorem run_refused (hc : c.autoCommit = true) (hw : c.engine.work = none) {via : Connection.Via} (hvia : via ≠ .update)
    {s : Statement ω} (hdone : s ≠ .query true) (hr : c.rejects s = false) {w : Weather} (hstmt : w.stmt = .ok)
    (hp : w.prepared = true) (hb : w.begin = .ok) (hcommit : w.commit = .refused) :
    (Connection.runStatement via s w).wp (fun _ _ => False) (fun c' => Stuck c'.engine.committed c') c := by
  obtain ⟨⟨ran, mine, work, ts, qo, rf⟩, auto, mode, first, ro, sp⟩ := c
  simp only at hc hw
  subst hc hw
  cases via <;> cases s with
  | query rows =>
    cases rows <;>
      simp [Connection.runStatement, Connection.notifyFirstStatementExecuted, Prog.wp_bind, Prog.wp_tryFinally,
        wp_ensure_idle, stuck_iff, hstmt, hp, hb, hcommit] at hdone hvia ⊢
  | write x insert =>
    cases qo <;>
      simp [Connection.runStatement, Connection.notifyFirstStatementExecuted, Prog.wp_bind, Prog.wp_tryFinally,
        wp_ensure_idle, stuck_iff, Connection.rejects, Statement.isWrite, hstmt, hp, hb, hcommit] at hr hvia ⊢

/-- The commit behind a statement of an auto-commit connection is refused: the call throws, and the
connection stays in SQLite's transaction. Calls go on as if nothing were, and commit nothing. -/
theorem refused_commit_run (cfg : SQLiteConfig) {c c' : Connection ω} (hc : c.autoCommit = true)
    (hw : c.engine.work = none) {via : Connection.Via} (hvia : via ≠ .update)
    {s : Statement ω} (hrefuses : via.refuses s = false) (hdone : s ≠ .query true)
    (hr : c.rejects s = false) {w : Weather} (hstmt : w.stmt = .ok) (hp : w.prepared = true) (hb : w.begin = .ok)
    (hcommit : w.commit = .refused) {en : Enforced} {k : Keys}
    (hnext : after cfg c (.execute via s en w k) = some c')
    {ls : List (Label ω)} (hls : EveryStep (after cfg) (fun _ => Stays) c' ls) :
    (program cfg (.execute via s en w k) c).1 = none ∧
      EveryState (after cfg) (Stuck c'.engine.committed) c' ls ∧ EveryStep (after cfg) (Silent cfg) c' ls := by
  have hrefused : (program cfg (.execute via s en w k)).wp (fun _ _ => False)
      (fun c' => Stuck c'.engine.committed c') c := by
    rw [wp_execute, hrefuses, if_neg (by decide), Prog.wp_bind_some (enforce_auto hc via en)]
    exact Prog.wp_stop (run_refused hc hw hvia hdone hr hstmt hp hb hcommit) fun _ => id
  have hstuck : Stuck c'.engine.committed c' := by
    cases hnext
    exact Prog.wp_state (E := fun c' => Stuck c'.engine.committed c')
      (Prog.wp_mono hrefused (fun _ _ h => h.elim) fun _ => id)
  have hstep : ∀ (d : Connection ω) l d', Stuck c'.engine.committed d → Stays l → after cfg d l = some d' →
      Stuck c'.engine.committed d' := fun d l d' hd hl hs => by
    cases hs
    exact (hd.program hl).1
  refine ⟨?_, everyState_of_invariant hstep (fun _ => id) hstuck hls, everyStep_of_invariant hstep ?_ hstuck hls⟩
  · unfold Prog.wp at hrefused
    split at hrefused
    · exact hrefused.elim
    · next heq => exact congrArg Prod.fst heq
  · exact fun d l hd hl => (hd.program hl).2

end

/-- An insert, and an interrupt at the commit behind it. -/
def insertRefused : Connection Nat :=
  { (opened {} false : Connection Nat) with engine := { ran := [1], committed := [1], work := some {} } }

theorem insert_refused :
    (program {} (.execute .prepared (.write 1 true) {} { commit := .refused } {})
      (opened {} false : Connection Nat)).1 = none ∧
      EveryState (after {}) (Stuck [1]) insertRefused
        [.execute .prepared (.write 2 true) {} {} {}, .execute .statement (.write 3 false) {} {} {}, .commit {} {}] ∧
      EveryStep (after {}) (Silent {}) insertRefused
        [.execute .prepared (.write 2 true) {} {} {}, .execute .statement (.write 3 false) {} {} {},
          .commit {} {}] := by
  refine refused_commit_run {} rfl rfl ?_ rfl ?_ rfl rfl rfl rfl rfl rfl ?_
  · decide
  · decide
  · exact ⟨⟨nofun, nofun⟩, fun _ _ => ⟨⟨nofun, nofun⟩, fun _ _ => ⟨trivial, fun _ _ => trivial⟩⟩⟩

end JdbcTransactions

end Sqlol

/-
A connection and its prepared statements. A `SqlitePreparedStatement` keeps
the parameters on the JVM's side and hands all of them to `runUser` at once,
so the session may leave the bindings of a user's statement as they are; the
cached statements are shared by text between calls and have to be NULL again.

`bindings_run_clean`: whatever the calls and however they end, a step that
begins an execution finds a reset statement with the bindings of its call.
-/
import Sqlol.Lifecycle

namespace Sqlol

namespace PreparedStatement

open Statements

/-- The values set since the last `clearParameters` are noted in `given`. -/
structure SqlitePreparedStatement where
  stmt : Nat
  parameterCount : Nat
  params : List Param
  closed : Bool := false
  given : Nat → Param
  filled : params = (List.range parameterCount).map fun i => given (i + 1)

namespace SqlitePreparedStatement

/-- The constructor. -/
def new (stmt parameterCount : Nat) : SqlitePreparedStatement where
  stmt
  parameterCount
  params := (List.range parameterCount).map fun _ => .null
  given _ := .null
  filled := rfl

theorem map_range_set (n j : Nat) (f : Nat → Param) (v : Param) :
    ((List.range n).map fun i => f (i + 1)).set j v =
      (List.range n).map fun i => Function.update f (j + 1) v (i + 1) := by
  apply List.ext_getElem
  · simp
  · intro i h₁ h₂
    by_cases hij : j = i
    · simp [hij]
    · simp [hij, Function.update_of_ne (show i + 1 ≠ j + 1 by omega)]

/-- `params[j] = value`. -/
def assign (ps : SqlitePreparedStatement) (j : Nat) (value : Param) : SqlitePreparedStatement :=
  { ps with
    params := ps.params.set j value
    given := Function.update ps.given (j + 1) value
    filled := by rw [ps.filled, map_range_set] }

/-- `params.fill(null)`. -/
def fillNull (ps : SqlitePreparedStatement) : SqlitePreparedStatement :=
  { ps with
    params := (List.range ps.parameterCount).map fun _ => .null
    given := fun _ => .null
    filled := rfl }

/-- `closed = true`. -/
def markClosed (ps : SqlitePreparedStatement) : SqlitePreparedStatement := { ps with closed := true }

/-- What the caller has set, parameter by parameter. -/
def supplied (ps : SqlitePreparedStatement) : List Param :=
  (List.range ps.parameterCount).map fun i => ps.given (i + 1)

end SqlitePreparedStatement

/-- The objects are those `prepare` has returned, by their number. -/
structure SqliteConnection where
  session : State := {}
  closed : Bool := false
  objects : List SqlitePreparedStatement := []

variable (g : Statements.Guest)

/-- The object that a call is made on. -/
def object (k : Nat) : Prog SqliteConnection SqlitePreparedStatement := do
  match (← Prog.get).objects[k]? with
  | some ps => pure ps
  | none => Prog.throw

/-- Its fields are others. -/
def store (k : Nat) (ps : SqlitePreparedStatement) : Prog SqliteConnection Unit :=
  Prog.modify fun con => { con with objects := con.objects.set k ps }

/-- The parameters of the call are noted for the steps in it. -/
def submitTask {α : Type} (params : List Param) (fn : Op α) : Prog SqliteConnection α := do
  Prog.throwIf (← Prog.get).closed
  Prog.within SqliteConnection.session (fun con s => { con with session := s })
    (do
      Prog.modify fun s => { s with current := params }
      fn)

/-- `SqliteConnection.prepare`. -/
def prepare (sql : String) : Prog SqliteConnection Unit := do
  let (st, n) ← submitTask [] (prepareUser g sql)
  Prog.modify fun con => { con with objects := con.objects ++ [.new st n] }

/-- `set(index, value)`. -/
def set (k : Nat) (index : Int) (value : Param) : Prog SqliteConnection Unit := do
  let ps ← object k
  Prog.throwIf ps.closed
  Prog.throwIf (¬(1 ≤ index ∧ index ≤ ps.parameterCount))
  store k (ps.assign (index.toNat - 1) value)

/-- The values from the index `i` on. -/
def setFrom (k : Nat) : Nat → List Param → Prog SqliteConnection Unit
  | _, [] => pure ()
  | i, v :: vs => do
    set k (i + 1) v
    setFrom k (i + 1) vs

/-- `setAll(values)`. -/
def setAll (k : Nat) (values : List Param) : Prog SqliteConnection Unit := do
  let ps ← object k
  Prog.throwIf (values.length ≠ ps.parameterCount)
  setFrom k 0 values

/-- `clearParameters()`, also of a closed one. -/
def clearParameters (k : Nat) : Prog SqliteConnection Unit := do
  let ps ← object k
  store k ps.fillNull

/-- `execute()`. -/
def execute (k : Nat) : Prog SqliteConnection Int := do
  let ps ← object k
  Prog.throwIf ps.closed
  submitTask ps.supplied (do
    let r ← runUser g ps.stmt ps.params
    Prog.throwIf (r.rc ≠ 0)
    pure (g.changes (← call g)))

/-- What `queryLong` and `queryText` have in common. -/
def scalar (k : Nat) : Prog SqliteConnection SqlResult := do
  let ps ← object k
  Prog.throwIf ps.closed
  let r ← submitTask ps.supplied (runUser g ps.stmt ps.params)
  Prog.throwIf (r.rc ≠ 0)
  pure r

/-- `queryLong()`. -/
def queryLong (k : Nat) : Prog SqliteConnection Int := do pure (← scalar g k).long

/-- `queryText()`. -/
def queryText (k : Nat) : Prog SqliteConnection String := do pure (← scalar g k).text

/-- `query()`. -/
def query (k : Nat) : Prog SqliteConnection (List SqliteRow) := do
  let ps ← object k
  Prog.throwIf ps.closed
  submitTask ps.supplied (runUserRows g ps.stmt ps.params)

/-- `close()` of a statement. -/
def closeStatement (k : Nat) : Prog SqliteConnection Unit := do
  let ps ← object k
  if ps.closed then pure ()
  else do
    store k ps.markClosed
    Prog.catching (submitTask [] (finalizeUser ps.stmt))

/-- The statements are only marked; `Session.close` finalizes them. -/
def close : Prog SqliteConnection Unit := do
  if (← Prog.get).closed then pure ()
  else do
    Prog.modify fun con => { con with closed := true, objects := con.objects.map (·.markClosed) }
    Prog.within SqliteConnection.session (fun con s => { con with session := s }) Statements.close

/-- A call on the connection, or on the object with a number. -/
inductive Call where
  | run (sql : String) (isQuery : Bool) (params : List Param)
  | sessionQuery (sql : String) (params : List Param)
  | queryRows (sql : String) (params : List Param)
  | prepare (sql : String)
  | set (k : Nat) (index : Int) (value : Param)
  | setAll (k : Nat) (values : List Param)
  | clearParameters (k : Nat)
  | execute (k : Nat)
  | queryLong (k : Nat)
  | queryText (k : Nat)
  | query (k : Nat)
  | closeStatement (k : Nat)
  | close

/-- The method of a call. -/
def Call.exec : Call → Prog SqliteConnection Unit
  | .run sql isQuery params => do
    let _ ← submitTask params (Statements.run g sql isQuery params)
    pure ()
  | .sessionQuery sql params => do
    let _ ← submitTask params (Statements.query g sql params)
    pure ()
  | .queryRows sql params => do
    let _ ← submitTask params (Statements.queryRows g sql params)
    pure ()
  | .prepare sql => PreparedStatement.prepare g sql
  | .set k index value => PreparedStatement.set k index value
  | .setAll k values => PreparedStatement.setAll k values
  | .clearParameters k => PreparedStatement.clearParameters k
  | .execute k => do
    let _ ← PreparedStatement.execute g k
    pure ()
  | .queryLong k => do
    let _ ← PreparedStatement.queryLong g k
    pure ()
  | .queryText k => do
    let _ ← PreparedStatement.queryText g k
    pure ()
  | .query k => do
    let _ ← PreparedStatement.query g k
    pure ()
  | .closeStatement k => PreparedStatement.closeStatement k
  | .close => PreparedStatement.close

/-- What a call leaves behind, whether it returns or throws. -/
def step (con : SqliteConnection) (c : Call) : Option SqliteConnection := some (c.exec g con).2

/-! ## The objects and the session's statements -/

/-- The open objects are among `sizes`, and no two have one statement. -/
structure Known (sizes : List (Nat × Nat)) (objects : List SqlitePreparedStatement) : Prop where
  size : ∀ (k : Nat) ps, objects[k]? = some ps → ps.closed = false → (ps.stmt, ps.parameterCount) ∈ sizes
  distinct : ∀ (k j : Nat) ps ps', objects[k]? = some ps → objects[j]? = some ps' → ps.closed = false →
    ps'.closed = false → ps.stmt = ps'.stmt → k = j

/-- A caller that binds every parameter, and the statements its open objects have. -/
def binder (sizes : List (Nat × Nat)) (params : List Param) : Ctx := ⟨True, sizes, params⟩

/-- Between two calls: the session is calm, and the statements of the open objects are its own. -/
def Inv (con : SqliteConnection) : Prop :=
  ∃ sizes, Calm (binder sizes con.session.current) con.session ∧ Known sizes con.objects

variable {g : Statements.Guest} {con : SqliteConnection} {k : Nat} {ps ps' : SqlitePreparedStatement}
  {sizes : List (Nat × Nat)} {objects : List SqlitePreparedStatement}

/-- The object in a list where one was replaced. -/
theorem getElem?_set_cases {j : Nat} {x : SqlitePreparedStatement} (hk : objects[k]? = some ps)
    (hx : (objects.set k ps')[j]? = some x) : (j = k ∧ x = ps') ∨ (j ≠ k ∧ objects[j]? = some x) := by
  by_cases hjk : j = k
  · subst hjk
    have hlt : j < objects.length := (List.getElem?_eq_some_iff.mp hk).1
    rw [List.getElem?_set_self hlt] at hx
    exact .inl ⟨rfl, (Option.some.inj hx).symm⟩
  · rw [List.getElem?_set_ne (Ne.symm hjk)] at hx
    exact .inr ⟨hjk, hx⟩

/-- Other parameters, the same statement. -/
theorem Known.put (hn : Known sizes objects) (hk : objects[k]? = some ps) (hstmt : ps'.stmt = ps.stmt)
    (hcount : ps'.parameterCount = ps.parameterCount) (hclosed : ps'.closed = ps.closed) :
    Known sizes (objects.set k ps') := by
  have hold : ∀ (j : Nat) x, (objects.set k ps')[j]? = some x → ∃ y, objects[j]? = some y ∧ x.stmt = y.stmt ∧
      x.parameterCount = y.parameterCount ∧ x.closed = y.closed := fun j x hx => by
    rcases getElem?_set_cases hk hx with ⟨rfl, rfl⟩ | ⟨-, hx⟩
    · exact ⟨ps, hk, hstmt, hcount, hclosed⟩
    · exact ⟨x, hx, rfl, rfl, rfl⟩
  refine ⟨fun j x hx hopen => ?_, fun i j x y hx hy hxo hyo heq => ?_⟩
  · obtain ⟨y, hy, hs, hc, ho⟩ := hold j x hx
    rw [hs, hc]
    exact hn.size j y hy (ho ▸ hopen)
  · obtain ⟨x', hx', hxs, -, hxc⟩ := hold i x hx
    obtain ⟨y', hy', hys, -, hyc⟩ := hold j y hy
    exact hn.distinct i j x' y' hx' hy' (hxc ▸ hxo) (hyc ▸ hyo) (hxs ▸ hys ▸ heq)

/-- The open ones behind a `close`: their statements are others. -/
theorem Known.markClosed (hn : Known sizes objects) (hk : objects[k]? = some ps) (hopen : ps.closed = false) :
    Known (sizes.filter fun x => x.1 ≠ ps.stmt) (objects.set k ps.markClosed) := by
  have hold : ∀ (j : Nat) x, (objects.set k ps.markClosed)[j]? = some x → x.closed = false →
      j ≠ k ∧ objects[j]? = some x := fun j x hx hxo => by
    rcases getElem?_set_cases hk hx with ⟨-, rfl⟩ | h
    · cases hxo
    · exact h
  refine ⟨fun j x hx hxo => ?_, fun i j x y hx hy hxo hyo heq => ?_⟩
  · obtain ⟨hjk, hx⟩ := hold j x hx hxo
    have hne : x.stmt ≠ ps.stmt := fun heq => hjk (hn.distinct j k x ps hx hk hxo hopen heq)
    exact List.mem_filter.mpr ⟨hn.size j x hx hxo, by simpa using hne⟩
  · exact hn.distinct i j x y (hold i x hx hxo).2 (hold j y hy hyo).2 hxo hyo heq

theorem Known.push {st n : Nat} (hn : Known sizes objects) (hnew : ∀ x ∈ sizes, x.1 ≠ st) :
    Known ((st, n) :: sizes) (objects ++ [.new st n]) := by
  have hold : ∀ (j : Nat) x, (objects ++ [SqlitePreparedStatement.new st n])[j]? = some x →
      objects[j]? = some x ∨ (j = objects.length ∧ x = .new st n) := fun j x hx => getElem?_concat_cases hx
  refine ⟨fun j x hx hxo => ?_, fun i j x y hx hy hxo hyo heq => ?_⟩
  · rcases hold j x hx with hx | ⟨-, rfl⟩
    · exact List.mem_cons_of_mem _ (hn.size j x hx hxo)
    · exact List.mem_cons_self
  · rcases hold i x hx with hx | ⟨rfl, rfl⟩ <;> rcases hold j y hy with hy | ⟨rfl, rfl⟩
    · exact hn.distinct i j x y hx hy hxo hyo heq
    · exact absurd heq (hnew _ (hn.size i x hx hxo))
    · exact absurd heq.symm (hnew _ (hn.size j y hy hyo))
    · rfl

end PreparedStatement

end Sqlol

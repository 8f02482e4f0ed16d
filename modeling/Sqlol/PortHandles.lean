/-
The statement handles of a `WorkerDbPort`. A handle is a guest address, a
plain number to the caller. The session keeps the user's handles in
`userStmts`; `finalizeStmt` looks there, the other operations hand whatever
number they get to the guest. `finalizeStmt` knows a statement by its address
only, and SQLite may give the address of a finalized statement to a later one.

`handles_run_iff`: the guest is called with registered handles only, and a
second `finalizeStmt` of a statement finalizes nothing, just in the runs whose
callers see to both. In such a run nothing is used behind its end
(`port_run_sound`), and it is enough that the caller keeps to handles it got
from `prepare` and has not finalized (`own_run_careful`).
-/
import Sqlol.Int32
import Sqlol.Lifecycle

namespace Sqlol

namespace PortHandles

open Statements

variable (g : Statements.Guest)

/-! ## The port's operations -/

/-- One attempt of `step`: codes it does not know become extended ones. -/
def stepOnce (st : Nat) : Op Int := do
  let rc ← sqlite3Step g st
  if rc = ROW ∨ rc = DONE ∨ rc = BUSY_RC ∨ rc = PROTOCOL_RC then pure rc
  else do pure (g.extendedErrcode (← call g))

/-- PROTOCOL is tried again, and returned behind the last attempt. -/
def stepLoop (st : Nat) : Nat → Op Int
  | 0 => pure PROTOCOL_RC
  | n + 1 => do
    let rc ← stepOnce g st
    if rc ≠ PROTOCOL_RC then pure rc
    else do
      sleep g
      stepLoop st n

/-- `step`: BUSY and PROTOCOL are tried again. -/
def step (st : Nat) : Op Int := stepLoop g st ATTEMPTS

/-- `reset`, with the code of the last execution. Where that commits, a listener may throw inside it. -/
def reset (st : Nat) : Op Int := do
  sqlite3Reset st
  let t ← tick
  if g.throws t then do
    setStmt st fun s => { s with cursor := .ended }
    Prog.throw
  else pure (g.resetRc t)

/-- `clearBindings`. -/
def clearBindings (st : Nat) : Op Int := do
  sqlite3ClearBindings st
  let _ ← call g
  pure 0

/-- `bindParameterCount`. -/
def bindParameterCount (st : Nat) : Op Nat := sqlite3BindParameterCount g st

/-- `columnCount`. -/
def columnCount (st : Nat) : Op Nat := sqlite3ColumnCount g st

/-- `columnType`. -/
def columnType (st col : Nat) : Op Nat := sqlite3ColumnType g st col

/-- None where SQLite has no such column. -/
def columnName (st col : Nat) : Op (Option String) := Statements.read g st (·.names[col]?)

/-- A text of a column that SQLite answers when asked. -/
def ask (st : Nat) (answer : Nat → Option String) : Op (Option String) := do
  use st
  pure (answer (← call g))

/-- `columnDecltype`. -/
def columnDecltype (st col : Nat) : Op (Option String) := ask g st (g.decltype · col)

/-- `columnTableName`. -/
def columnTableName (st col : Nat) : Op (Option String) := ask g st (g.tableName · col)

/-- `sqlite3_column_text`, then `sqlite3_column_bytes`. -/
def columnText (st col : Nat) : Op (Option String) := do
  match ← Statements.read g st (column col) with
  | .null => pure none
  | _ => do pure (some (← sqlite3ColumnText g st col))

/-- The blob of a value, as `sqlite3_column_blob` finds it. -/
def blobOf : Value → List UInt8
  | .null => []
  | .blob b => b
  | v => g.asBlob v

/-- An empty blob has no address; its type tells it from NULL. -/
def columnBlob (st col : Nat) : Op (Option (List UInt8)) := do
  let b ← Statements.read g st fun s => blobOf g (column col s)
  if b.isEmpty then do
    let ty ← sqlite3ColumnType g st col
    pure (if ty = 5 then none else some [])
  else do
    pure (some (← Statements.read g st fun s => blobOf g (column col s)))

/-- `columnLong`. -/
def columnLong (st col : Nat) : Op Int := sqlite3ColumnInt64 g st col

/-- `columnInt`: the low 32 bits. -/
def columnInt (st col : Nat) : Op Int := do pure (i32 (← sqlite3ColumnInt64 g st col))

/-- `columnDouble`. -/
def columnDouble (st col : Nat) : Op Float := sqlite3ColumnDouble g st col

/-- The flags of one column: notnull, primary key, autoincrement. -/
def metadataOf (st col : Nat) : Op (List Bool) := do
  let tbl ← columnTableName g st col
  let name ← columnName g st col
  if tbl.isNone || name.isNone then pure [false, false, false]
  else do pure ((g.metadata (← call g) col).getD [false, false, false])

/-- `malloc` comes before the `try`. -/
def columnMetadata (st : Nat) : Op (List (List Bool)) := do
  let n ← sqlite3ColumnCount g st
  let _ ← call g
  Prog.tryFinally (Prog.listFrom (metadataOf g st) 0 n)
    (do
      let _ ← call g
      pure ())

/-- `bind`, of one parameter. -/
def bind (st pos : Nat) (v : Param) : Op Int := bindOne g st pos v

/-- What the caller does with a handle, `prepare` and `finalizeStmt` apart. -/
inductive Access where
  | step
  | reset
  | clearBindings
  | bindParameterCount
  | columnCount
  | columnType (col : Nat)
  | columnName (col : Nat)
  | columnDecltype (col : Nat)
  | columnTableName (col : Nat)
  | columnText (col : Nat)
  | columnBlob (col : Nat)
  | columnLong (col : Nat)
  | columnInt (col : Nat)
  | columnDouble (col : Nat)
  | columnMetadata
  | bind (pos : Nat) (v : Param)

/-- The result is the caller's. -/
def drop {α : Type} (p : Op α) : Op Unit := do
  let _ ← p
  pure ()

/-- The method of an access. -/
def Access.exec (st : Nat) : Access → Op Unit
  | .step => drop (PortHandles.step g st)
  | .reset => drop (PortHandles.reset g st)
  | .clearBindings => drop (PortHandles.clearBindings g st)
  | .bindParameterCount => drop (PortHandles.bindParameterCount g st)
  | .columnCount => drop (PortHandles.columnCount g st)
  | .columnType col => drop (PortHandles.columnType g st col)
  | .columnName col => drop (PortHandles.columnName g st col)
  | .columnDecltype col => drop (PortHandles.columnDecltype g st col)
  | .columnTableName col => drop (PortHandles.columnTableName g st col)
  | .columnText col => drop (PortHandles.columnText g st col)
  | .columnBlob col => drop (PortHandles.columnBlob g st col)
  | .columnLong col => drop (PortHandles.columnLong g st col)
  | .columnInt col => drop (PortHandles.columnInt g st col)
  | .columnDouble col => drop (PortHandles.columnDouble g st col)
  | .columnMetadata => drop (PortHandles.columnMetadata g st)
  | .bind pos v => drop (PortHandles.bind g st pos v)

/-- A bind of a value it does not take ends before the guest is called. -/
def Access.CallsGuest : Access → Prop
  | .bind _ v => v.value ≠ none
  | _ => True

/-! ## Its runs -/

/-- The handles `prepare` returned, in order, which of them were finalized, and the numbers that
`finalizeStmt` got, are notes. -/
structure Port where
  session : State
  prepared : List Nat := []
  finalized : List Nat := []
  values : List Nat := []

/-- What a caller hands to `finalizeStmt`: any number, or what the `i`-th `prepare` returned. -/
inductive Handle where
  | number (st : Nat)
  | prepared (i : Nat)

namespace Handle

/-- The number that a handle stands for. -/
def value (p : Port) : Handle → Option Nat
  | .number st => some st
  | .prepared i => p.prepared[i]?

/-- A number is the handle of whatever was prepared at it. -/
def indices (p : Port) : Handle → List Nat
  | .number st => (List.range p.prepared.length).filter (p.prepared[·]? = some st)
  | .prepared i => [i]

/-- The caller has finalized it before. A number does not tell which statement it is from, so one
that `finalizeStmt` got before counts as that handle. -/
def Spent (p : Port) : Handle → Prop
  | .number st => st ∈ p.values
  | .prepared i => i ∈ p.finalized

end Handle

/-- The calls of a port's user. -/
inductive Label where
  | prepare (sql : String)
  | finalizeStmt (x : Handle)
  | on (st : Nat) (a : Access)

/-- What a call leaves; none for a handle that was not prepared. -/
def next (p : Port) : Label → Option Port
  | .prepare sql => match prepareUser g sql p.session with
    | (some r, s) => some { p with session := s, prepared := p.prepared ++ [r.1] }
    | (none, s) => some { p with session := s }
  | .finalizeStmt x => (x.value p).map fun st =>
    { p with
      session := (finalizeUser st p.session).2
      finalized := x.indices p ++ p.finalized
      values := st :: p.values }
  | .on st a => some { p with session := (a.exec g st p.session).2 }

/-- `SqliteWorker.spawn`, behind the open. -/
def warmUp : Op Unit := do
  let _ ← exec g "PRAGMA journal_mode=WAL"
  let _ ← exec g "PRAGMA synchronous=NORMAL"
  let _ ← exec g "PRAGMA busy_timeout=5000"
  let r ← Statements.run g "SELECT 1" true []
  Prog.throwIf (r.long ≠ 1)

/-- A port just opened, with the worker's own statements prepared. -/
def opened : Port := { session := (warmUp g {}).2 }

/-- The handle the guest is called with. -/
def handle : Event → Nat
  | .prepared h | .finalized h | .used h => h

/-- The guest's calls between two states, the latest first. -/
def Between (s s' : State) (calls : List Event) : Prop := s'.log = calls ++ s.log

/-- What a step of the port should keep to. -/
structure Safe (p : Port) (l : Label) : Prop where
  /-- The guest is called with registered handles, the one `prepare` registers among them. -/
  registered : ∀ p', next g p l = some p' → ∀ calls, Between p.session p'.session calls →
    ∀ e ∈ calls, handle e ∈ p.session.user ∨ handle e ∈ p'.session.user
  /-- A statement finalized before is not finalized again, nor any other in its place. -/
  once : ∀ x, l = .finalizeStmt x → x.Spent p → ∀ p', next g p l = some p' →
    ∀ calls, Between p.session p'.session calls → ∀ h, .finalized h ∉ calls

/-- What the caller has to see to. -/
def Careful (p : Port) : Label → Prop
  | .prepare _ => True
  | .finalizeStmt x => x.Spent p → ∀ st, x.value p = some st → st ∉ p.session.user
  | .on st a => a.CallsGuest → st ∈ p.session.user

/-! ## Which handles an operation uses -/

/-- The guest was called with `st` only, if at all. -/
structure Only (st : Nat) (s s' : State) : Prop where
  cache : s'.cache = s.cache
  user : s'.user = s.user
  calls : ∃ calls, Between s s' calls ∧ ∀ e ∈ calls, e = .used st

/-- At least once. -/
structure Uses (st : Nat) (s s' : State) : Prop extends Only st s s' where
  some : ∃ calls, Between s s' (calls ++ [.used st])

section
variable {g : Statements.Guest} {st : Nat} {s s₁ s₂ : State} {α β : Type} {p : Op α}

theorem Only.refl : Only st s s := ⟨rfl, rfl, [], rfl, nofun⟩

theorem Only.trans (h₁ : Only st s s₁) (h₂ : Only st s₁ s₂) : Only st s s₂ := by
  obtain ⟨xs, hxs, hall⟩ := h₁.calls
  obtain ⟨ys, hys, hall'⟩ := h₂.calls
  refine ⟨h₂.cache.trans h₁.cache, h₂.user.trans h₁.user, ys ++ xs, ?_, fun e he => ?_⟩
  · unfold Between at *
    rw [hys, hxs, List.append_assoc]
  · rcases List.mem_append.mp he with he | he
    · exact hall' e he
    · exact hall e he

theorem Uses.trans (h₁ : Uses st s s₁) (h₂ : Only st s₁ s₂) : Uses st s s₂ := by
  obtain ⟨xs, hxs⟩ := h₁.some
  obtain ⟨ys, hys, -⟩ := h₂.calls
  refine ⟨h₁.toOnly.trans h₂, ys ++ xs, ?_⟩
  unfold Between at *
  rw [hys, hxs]
  simp

/-- However it ends, the program calls the guest with `st` only. -/
def Confined (st : Nat) (p : Op α) : Prop := ∀ s, p.wp (fun _ => Only st s) (Only st s) s

/-- The program gives the handle to the guest. -/
def Touching (st : Nat) (p : Op α) : Prop := ∀ s, p.wp (fun _ => Uses st s) (Uses st s) s

theorem Touching.confined (hp : Touching st p) : Confined st p :=
  fun s => Prog.wp_mono (hp s) (fun _ _ h => h.toOnly) fun _ h => h.toOnly

theorem confined_pure {a : α} : Confined st (pure a : Op α) := fun _ => Only.refl

theorem Confined.bind {f : α → Op β} (hp : Confined st p) (hf : ∀ a, Confined st (f a)) : Confined st (p >>= f) := by
  intro s
  rw [Prog.wp_bind]
  refine Prog.wp_mono (hp s) (fun a s₁ h₁ => ?_) fun _ h => h
  exact Prog.wp_mono (hf a s₁) (fun _ _ h₂ => h₁.trans h₂) fun _ h₂ => h₁.trans h₂

theorem Touching.bind {f : α → Op β} (hp : Touching st p) (hf : ∀ a, Confined st (f a)) : Touching st (p >>= f) := by
  intro s
  rw [Prog.wp_bind]
  refine Prog.wp_mono (hp s) (fun a s₁ h₁ => ?_) fun _ h => h
  exact Prog.wp_mono (hf a s₁) (fun _ _ h₂ => h₁.trans h₂) fun _ h₂ => h₁.trans h₂

theorem Touching.drop (hp : Touching st p) : Touching st (drop p) := hp.bind fun _ => confined_pure

theorem Confined.tryFinally {q : Op Unit} (hp : Confined st p) (hq : Confined st q) :
    Confined st (Prog.tryFinally p q) := by
  intro s
  rw [Prog.wp_tryFinally]
  refine Prog.wp_mono (hp s) (fun a s₁ h₁ => ?_) fun s₁ h₁ => ?_
  · exact Prog.wp_mono (hq s₁) (fun _ _ h₂ => h₁.trans h₂) fun _ h₂ => h₁.trans h₂
  · exact Prog.wp_mono (hq s₁) (fun _ _ h₂ => h₁.trans h₂) fun _ h₂ => h₁.trans h₂

theorem Confined.ite {c : Prop} [Decidable c] {q : Op α} (hp : Confined st p) (hq : Confined st q) :
    Confined st (if c then p else q) := by
  split
  · exact hp
  · exact hq

theorem confined_throw : Confined st (Prog.throw : Op α) := fun _ => Only.refl

/-- What is no call with a handle. -/
theorem confined_modify {f : State → State}
    (hf : ∀ s, (f s).cache = s.cache ∧ (f s).user = s.user ∧ (f s).log = s.log) :
    Confined st (Prog.modify f) := fun s => ⟨(hf s).1, (hf s).2.1, [], (hf s).2.2, nofun⟩

theorem confined_setStmt {h : Nat} {f : Stmt → Stmt} : Confined st (setStmt h f) :=
  confined_modify fun _ => ⟨rfl, rfl, rfl⟩

theorem confined_noteStart {t h : Nat} : Confined st (Prog.modify (noteStart t h)) := by
  refine confined_modify fun s => ?_
  unfold noteStart
  split <;> exact ⟨rfl, rfl, rfl⟩

theorem confined_tick : Confined st tick := fun _ => ⟨rfl, rfl, [], rfl, nofun⟩

theorem confined_get : Confined st (Prog.get : Op State) := fun _ => Only.refl

theorem confined_throwIf {bad : Bool} : Confined st (Prog.throwIf bad : Op Unit) := by
  cases bad
  · exact confined_pure
  · exact confined_throw

theorem confined_call : Confined st (call g) :=
  confined_tick.bind fun _ => confined_throwIf.bind fun _ => confined_pure

theorem confined_sleep : Confined st (sleep g) := confined_call.bind fun _ => confined_pure

theorem touching_use : Touching st (use st) :=
  fun _ => ⟨⟨rfl, rfl, [.used st], rfl, fun _ he => List.mem_singleton.mp he⟩, [], rfl⟩

theorem touching_read {f : Stmt → α} : Touching st (Statements.read g st f) :=
  touching_use.bind fun _ => confined_call.bind fun _ => confined_get.bind fun _ => confined_pure

theorem touching_step : Touching st (sqlite3Step g st) := by
  refine touching_use.bind fun _ => confined_tick.bind fun t => confined_noteStart.bind fun _ =>
    confined_setStmt.bind fun _ => ?_
  refine (confined_setStmt.bind fun _ => confined_throw).ite (Confined.ite ?_ ?_)
  · refine confined_setStmt.bind fun _ => Confined.bind ?_ fun _ => confined_pure
    exact confined_modify fun _ => ⟨rfl, rfl, rfl⟩
  · exact confined_setStmt.bind fun _ => confined_pure

theorem touching_reset : Touching st (reset g st) := by
  refine Touching.bind (touching_use.bind fun _ => confined_setStmt : Touching st (sqlite3Reset st)) fun _ => ?_
  exact confined_tick.bind fun t => (confined_setStmt.bind fun _ => confined_throw).ite confined_pure

theorem touching_clearBindings : Touching st (clearBindings g st) := by
  refine Touching.bind (touching_use.bind fun _ => confined_setStmt : Touching st (sqlite3ClearBindings st)) fun _ => ?_
  exact confined_call.bind fun _ => confined_pure

theorem touching_bind {i : Nat} {v : Value} : Touching st (sqlite3Bind g st i v) := by
  refine touching_use.bind fun _ => confined_tick.bind fun t => confined_get.bind fun s => ?_
  refine (confined_setStmt.bind fun _ => confined_throw).ite (confined_pure.ite (confined_pure.ite ?_))
  exact (confined_setStmt.bind fun _ => confined_pure).ite (confined_setStmt.bind fun _ => confined_pure)

theorem confined_listFrom {f : Nat → Op α} (hf : ∀ i, Confined st (f i)) {n i : Nat} :
    Confined st (Prog.listFrom f i n) := by
  induction n generalizing i with
  | zero => exact confined_pure
  | succ n ih => exact (hf i).bind fun _ => ih.bind fun _ => confined_pure

theorem touching_stepOnce : Touching st (stepOnce g st) :=
  touching_step.bind fun _ => confined_pure.ite (confined_call.bind fun _ => confined_pure)

theorem confined_stepLoop {n : Nat} : Confined st (stepLoop g st n) := by
  induction n with
  | zero => exact confined_pure
  | succ n ih =>
    exact touching_stepOnce.confined.bind fun _ => confined_pure.ite (confined_sleep.bind fun _ => ih)

theorem touching_stepLoop {n : Nat} : Touching st (stepLoop g st (n + 1)) :=
  touching_stepOnce.bind fun _ => confined_pure.ite (confined_sleep.bind fun _ => confined_stepLoop)

theorem touching_ask {answer : Nat → Option String} : Touching st (ask g st answer) :=
  touching_use.bind fun _ => confined_call.bind fun _ => confined_pure

theorem touching_columnText {col : Nat} : Touching st (columnText g st col) := by
  refine touching_read.bind fun v => ?_
  cases v <;> first | exact confined_pure | exact touching_read.confined.bind fun _ => confined_pure

theorem touching_columnBlob {col : Nat} : Touching st (columnBlob g st col) :=
  touching_read.bind fun _ =>
    (touching_read.confined.bind fun _ => confined_pure).ite (touching_read.confined.bind fun _ => confined_pure)

theorem confined_metadataOf {col : Nat} : Confined st (metadataOf g st col) :=
  touching_ask.confined.bind fun _ => touching_read.confined.bind fun _ =>
    confined_pure.ite (confined_call.bind fun _ => confined_pure)

theorem touching_columnMetadata : Touching st (columnMetadata g st) := by
  refine touching_read.bind fun n => confined_call.bind fun _ => ?_
  exact (confined_listFrom fun _ => confined_metadataOf).tryFinally (confined_call.bind fun _ => confined_pure)

/-- Every operation hands its handle to the guest. -/
theorem Access.exec_uses {a : Access} (ha : a.CallsGuest) : Touching st (a.exec g st) := by
  cases a with
  | step => exact touching_stepLoop.drop
  | reset => exact touching_reset.drop
  | clearBindings => exact touching_clearBindings.drop
  | bindParameterCount =>
    refine Touching.drop ?_
    unfold PortHandles.bindParameterCount sqlite3BindParameterCount
    exact touching_read
  | columnCount =>
    refine Touching.drop ?_
    unfold PortHandles.columnCount sqlite3ColumnCount
    exact touching_read
  | columnType col =>
    refine Touching.drop ?_
    unfold PortHandles.columnType sqlite3ColumnType
    exact touching_read
  | columnName col =>
    refine Touching.drop ?_
    unfold PortHandles.columnName
    exact touching_read
  | columnDecltype col => exact touching_ask.drop
  | columnTableName col => exact touching_ask.drop
  | columnText col => exact touching_columnText.drop
  | columnBlob col => exact touching_columnBlob.drop
  | columnLong col =>
    refine Touching.drop ?_
    unfold PortHandles.columnLong sqlite3ColumnInt64
    exact touching_read
  | columnInt col => exact (touching_read.bind fun _ => confined_pure).drop
  | columnDouble col =>
    refine Touching.drop ?_
    unfold PortHandles.columnDouble sqlite3ColumnDouble
    exact touching_read
  | columnMetadata => exact touching_columnMetadata.drop
  | bind pos v =>
    refine Touching.drop ?_
    unfold PortHandles.bind bindOne
    cases hv : v.value with
    | none => exact absurd hv ha
    | some x => exact touching_bind

/-- But for the bind of a value it does not take. -/
theorem Access.exec_throws {a : Access} (ha : ¬a.CallsGuest) : (a.exec g st s).2 = s := by
  cases a with
  | bind pos v =>
    have hv : v.value = none := not_not.mp ha
    simp only [Access.exec, PortHandles.drop, PortHandles.bind, bindOne, hv]
    rfl
  | _ => exact absurd trivial ha

/-- What `prepareUser` prepares, it registers. -/
theorem prepareUser_wp {sql : String} {Q : Nat × Nat → State → Prop} {E : State → Prop}
    (hno : E { s with time := s.time + 1 })
    (hnew : ∀ h s', h ∉ live s.log → s'.cache = s.cache → s'.user = s.user ++ [h] →
      s'.log = .used h :: .prepared h :: s.log → E s' ∧ ∀ n, Q (h, n) s') :
    (prepareUser g sql).wp Q E s := by
  unfold prepareUser
  rw [Prog.wp_bind]
  refine prepare_wp hno (fun rc => ?_) fun h hh hl => ?_
  · simp only [Prog.wp_bind, Prog.wp_throwIf]
    split <;> exact hno
  · simp only [sqlite3BindParameterCount, Statements.read, call, Prog.wp_bind, Prog.wp_throwIf, Prog.wp_modify,
      use_wp, tick_wp, Prog.wp_get, Prog.wp_pure]
    rw [if_neg (by decide), if_neg (by simpa using hh)]
    split
    · refine (hnew h _ hl ?_ ?_ ?_).1 <;> rfl
    · refine (hnew h _ hl ?_ ?_ ?_).2 _ <;> rfl

/-! ## When a step is safe -/

variable {p p' : Port} {l : Label}

/-- Both say the same of the calls between two states. -/
theorem Between.eq {xs ys : List Event} (hx : Between s s₁ xs) (hy : Between s s₁ ys) : xs = ys :=
  List.append_cancel_right (hx.symm.trans hy)

theorem finalizeUser_state : (finalizeUser st s).2 =
    if st ∈ s.user then { s with user := s.user.erase st, log := .finalized st :: s.log } else s := by
  show ((if st ∈ s.user then _ else _ : Op Unit) s).2 = _
  split <;> rfl

theorem next_prepare {sql : String} (hp : next g p (.prepare sql) = some p') :
    p'.session = (prepareUser g sql p.session).2 := by
  simp only [next] at hp
  split at hp
  · next heq =>
    cases hp
    rw [heq]
  · next heq =>
    cases hp
    rw [heq]

theorem prepare_safe {sql : String} : Safe g p (.prepare sql) := by
  refine ⟨fun p' hp calls hcalls e he => .inr ?_, fun i hi => by cases hi⟩
  have hreg : (prepareUser g sql).wp
      (fun _ s' => ∃ calls, Between p.session s' calls ∧ ∀ e ∈ calls, handle e ∈ s'.user)
      (fun s' => ∃ calls, Between p.session s' calls ∧ ∀ e ∈ calls, handle e ∈ s'.user) p.session := by
    refine prepareUser_wp ⟨[], rfl, nofun⟩ fun h s' _ _ huser hlog => ?_
    have hall : ∀ e ∈ [Event.used h, .prepared h], handle e ∈ s'.user := by
      intro e he
      have hh : handle e = h := by
        simp only [List.mem_cons, List.not_mem_nil, or_false] at he
        rcases he with rfl | rfl <;> rfl
      rw [hh, huser]
      exact List.mem_append_right _ List.mem_cons_self
    exact ⟨⟨[.used h, .prepared h], hlog, hall⟩, fun _ => ⟨[.used h, .prepared h], hlog, hall⟩⟩
  rw [next_prepare hp] at hcalls ⊢
  obtain ⟨calls', hcalls', hall⟩ := Prog.wp_state hreg
  rw [hcalls.eq hcalls'] at he
  exact hall e he

/-- The calls of a `finalizeStmt`. -/
theorem finalize_between {x : Handle} (hx : x.value p = some st) (hp : next g p (.finalizeStmt x) = some p') :
    Between p.session p'.session (if st ∈ p.session.user then [.finalized st] else []) := by
  simp only [next, hx, Option.map_some, Option.some.injEq] at hp
  subst hp
  unfold Between
  rw [finalizeUser_state]
  split <;> rfl

theorem finalize_safe_iff {x : Handle} : Safe g p (.finalizeStmt x) ↔ Careful p (.finalizeStmt x) := by
  have hvalue : ∀ p', next g p (.finalizeStmt x) = some p' → ∃ st, x.value p = some st := fun p' hp =>
    Option.isSome_iff_exists.mp (by cases hx : x.value p <;> simp_all [next])
  constructor
  · intro hs hspent st hx hu
    obtain ⟨p', hp⟩ : ∃ p', next g p (.finalizeStmt x) = some p' := ⟨_, by rw [next, hx]; rfl⟩
    have hcalls := finalize_between hx hp
    rw [if_pos hu] at hcalls
    exact hs.once x rfl hspent p' hp _ hcalls st List.mem_cons_self
  · intro hc
    refine ⟨fun p' hp calls hcalls e he => .inl ?_, fun y hy hspent p' hp calls hcalls h hh => ?_⟩
    · obtain ⟨st, hst⟩ := hvalue p' hp
      rw [hcalls.eq (finalize_between hst hp)] at he
      split at he
      · next hu =>
        rw [List.mem_singleton.mp he]
        exact hu
      · cases he
    · cases hy
      obtain ⟨st, hst⟩ := hvalue p' hp
      have hnot : st ∉ p.session.user := hc hspent st hst
      rw [hcalls.eq (finalize_between hst hp), if_neg hnot] at hh
      cases hh

theorem access_safe_iff {a : Access} : Safe g p (.on st a) ↔ Careful p (.on st a) := by
  have huses : a.CallsGuest → Uses st p.session (a.exec g st p.session).2 :=
    fun ha => Prog.wp_state (Access.exec_uses ha p.session)
  constructor
  · intro hs ha
    obtain ⟨calls, hcalls⟩ := (huses ha).some
    have hmem : .used st ∈ calls ++ [.used st] := List.mem_append_right _ List.mem_cons_self
    rcases hs.registered _ rfl _ hcalls _ hmem with h | h
    · exact h
    · exact (huses ha).user ▸ h
  · intro hc
    refine ⟨fun p' hp calls hcalls e he => .inl ?_, fun i hi => by cases hi⟩
    cases hp
    by_cases ha : a.CallsGuest
    · obtain ⟨calls', hcalls', hall⟩ := (huses ha).calls
      rw [hcalls.eq hcalls'] at he
      rw [hall e he]
      exact hc ha
    · have hnone : Between p.session (a.exec g st p.session).2 [] := by rw [Access.exec_throws ha]; rfl
      rw [hcalls.eq hnone] at he
      cases he

theorem safe_iff : Safe g p l ↔ Careful p l := by
  cases l with
  | prepare sql => exact iff_of_true prepare_safe trivial
  | finalizeStmt x => exact finalize_safe_iff
  | on st a => exact access_safe_iff

end

/-- **When the port is safe with handles**: a run calls the guest with
registered handles only, and finalizes nothing for a statement finalized
before, just when its caller hands every operation a registered handle and
does not finalize a handle again whose address a later statement has. -/
theorem handles_run_iff (g : Statements.Guest) (labels : List Label) :
    EveryStep (next g) (Safe g) (opened g) labels ↔ EveryStep (next g) Careful (opened g) labels :=
  ⟨.imp fun _ _ => safe_iff.mp, .imp fun _ _ => safe_iff.mpr⟩

/-- Only the warm-up's `SELECT 1` has a row. -/
def warm : Statements.Guest := { quiet with
  stepRc := fun t => if t = 4 then ROW else DONE
  cell := fun _ _ => .long 1 }

/-- The first statement is finalized, and the second has its address, 2. -/
def reuse (x : Handle) : List Label := [.prepare "SELECT a FROM t", .finalizeStmt x, .prepare "SELECT b FROM t"]

/-- A `step` with a number that is no handle reaches the guest; and to finalize
the first statement again finalizes the second, whether the caller has the
handle of the first or writes its number. -/
theorem stale_handles :
    ¬EveryStep (next warm) (Safe warm) (opened warm) [.on 7 .step] ∧
    ¬EveryStep (next warm) (Safe warm) (opened warm) (reuse (.prepared 0) ++ [.finalizeStmt (.prepared 0)]) ∧
    ¬EveryStep (next warm) (Safe warm) (opened warm) (reuse (.number 2) ++ [.finalizeStmt (.number 2)]) := by
  refine ⟨fun h => ?_, fun h => ?_, fun h => ?_⟩
  · have hc : 7 ∈ (opened warm).session.user := safe_iff.mp h.1 trivial
    exact absurd hc (by decide +kernel)
  · have hrun : (run (next warm) (opened warm) (reuse (.prepared 0))).map
        (fun p => (p.prepared, p.finalized, p.session.user)) = some ([2, 2], [0], [2]) := by decide +kernel
    obtain ⟨p, hp, heq⟩ := Option.map_eq_some_iff.mp hrun
    obtain ⟨hprepared, hfinalized, huser⟩ : p.prepared = [2, 2] ∧ p.finalized = [0] ∧ p.session.user = [2] := by
      simpa using heq
    have hc := safe_iff.mp (h.append hp).1
    refine hc (hfinalized ▸ List.mem_cons_self : 0 ∈ p.finalized) 2 ?_ (huser ▸ List.mem_cons_self)
    show p.prepared[0]? = some 2
    rw [hprepared]
    rfl
  · have hrun : (run (next warm) (opened warm) (reuse (.number 2))).map (fun p => (p.values, p.session.user)) =
        some ([2], [2]) := by decide +kernel
    obtain ⟨p, hp, heq⟩ := Option.map_eq_some_iff.mp hrun
    obtain ⟨hvalues, huser⟩ : p.values = [2] ∧ p.session.user = [2] := by simpa using heq
    have hc := safe_iff.mp (h.append hp).1
    exact hc (hvalues ▸ List.mem_cons_self : 2 ∈ p.values) 2 rfl (huser ▸ List.mem_cons_self)

/-! ## A careful caller -/

section
variable {g : Statements.Guest} {st : Nat} {s s' : State} {p p' : Port} {l : Label}

theorem sound_used {calls log : List Event} (hl : st ∈ live log) (hs : Sound log) (hall : ∀ e ∈ calls, e = .used st) :
    Sound (calls ++ log) ∧ live (calls ++ log) = live log := by
  induction calls with
  | nil => exact ⟨hs, rfl⟩
  | cons e calls ih =>
    obtain ⟨hsound, hlive⟩ := ih fun e he => hall e (List.mem_cons_of_mem _ he)
    rw [hall e List.mem_cons_self, List.cons_append]
    exact ⟨⟨by rw [hlive]; exact hl, hsound⟩, hlive⟩

theorem Only.owned (ho : Owned [] s) (hu : st ∈ s.user) (h : Only st s s') : Owned [] s' := by
  obtain ⟨calls, hcalls, hall⟩ := h.calls
  unfold Between at hcalls
  obtain ⟨hsound, hlive⟩ := sound_used (ho.live_of_user hu) ho.sound hall
  refine ⟨?_, ?_, ?_⟩ <;> rw [hcalls]
  · exact hsound
  · rw [hlive]; exact ho.nodup
  · rw [hlive, h.cache, h.user]; exact ho.owned

theorem prepareUser_owned {sql : String} (ho : Owned [] s) : Owned [] (prepareUser g sql s).2 := by
  refine Prog.wp_state (prepareUser_wp ⟨ho.sound, ho.nodup, ho.owned⟩ fun h s' hnew hcache huser hlog => ?_)
  have hloose : Owned [h] { s with log := .prepared h :: s.log } := ho.prepared hnew rfl rfl rfl
  have hkept : Owned [] s' := (hloose.keep.used List.mem_cons_self (.inr hlog) hcache huser).1
  exact ⟨hkept, fun _ => hkept⟩

theorem next_owned (ho : Owned [] p.session) (hc : Careful p l) (hp : next g p l = some p') :
    Owned [] p'.session := by
  cases l with
  | prepare sql =>
    rw [next_prepare hp]
    exact prepareUser_owned ho
  | finalizeStmt x =>
    obtain ⟨st, -, rfl⟩ := Option.map_eq_some_iff.mp hp
    show Owned [] (finalizeUser st p.session).2
    rw [finalizeUser_state]
    split
    · next hu => exact ho.finalized hu
    · exact ho
  | on st a =>
    cases hp
    show Owned [] (a.exec g st p.session).2
    by_cases ha : a.CallsGuest
    · have huses : Uses st p.session (a.exec g st p.session).2 := Prog.wp_state (Access.exec_uses ha p.session)
      exact huses.toOnly.owned ho (hc ha)
    · rw [Access.exec_throws ha]
      exact ho

theorem opened_owned : Owned [] (opened g).session := by
  have hcalm : (warmUp g).wp (fun _ => Calm (anyCaller [])) (Calm (anyCaller [])) {} := by
    refine Prog.wp_then (exec_calm calm_empty) fun _ s₁ h₁ => Prog.wp_then (exec_calm h₁) fun _ s₂ h₂ =>
      Prog.wp_then (exec_calm h₂) fun _ s₃ h₃ => Prog.wp_then (run_calm rfl h₃) fun r s₄ h₄ => ?_
    rw [Prog.wp_throwIf]
    split <;> exact h₄
  exact (Prog.wp_state hcalm).toOwned

end

/-- **A careful caller's port uses nothing behind its end**: no statement is
used or finalized that is not live, and no address is given out twice. -/
theorem port_run_sound (g : Statements.Guest) (labels : List Label)
    (hc : EveryStep (next g) Careful (opened g) labels) :
    EveryState (next g) (fun p => Sound p.session.log) (opened g) labels :=
  everyState_of_invariant (fun _ _ _ ho hc hp => next_owned ho hc hp) (fun _ ho => ho.sound) opened_owned hc

/-! ## A caller with its own handles -/

/-- Only handles that `prepare` returned, and none of a statement finalized before. -/
def OwnHandles (p : Port) : Label → Prop
  | .prepare _ => True
  | .finalizeStmt (.number _) => False
  | .finalizeStmt (.prepared i) => i ∉ p.finalized
  | .on st _ => ∃ i, p.prepared[i]? = some st ∧ i ∉ p.finalized

/-- The statements not yet finalized are registered, each at an address of its own. -/
structure Keeps (p : Port) : Prop where
  owned : Owned [] p.session
  registered : ∀ (i st : Nat), p.prepared[i]? = some st → i ∉ p.finalized → st ∈ p.session.user
  distinct : ∀ (i j st : Nat), p.prepared[i]? = some st → p.prepared[j]? = some st → i ∉ p.finalized →
    j ∉ p.finalized → i = j

section
variable {g : Statements.Guest} {p p' : Port} {l : Label}

theorem Keeps.careful (hk : Keeps p) (ho : OwnHandles p l) : Careful p l := by
  cases l with
  | prepare sql => trivial
  | finalizeStmt x =>
    cases x with
    | number st => exact ho.elim
    | prepared i => exact fun hi => absurd hi ho
  | on st a =>
    obtain ⟨i, hi, hnot⟩ := ho
    exact fun _ => hk.registered i st hi hnot

/-- `prepare` registers what it returns, and leaves the others where they are. -/
theorem prepare_cases {sql : String} (hp : next g p (.prepare sql) = some p') :
    p'.finalized = p.finalized ∧ (∀ st ∈ p.session.user, st ∈ p'.session.user) ∧
    (p'.prepared = p.prepared ∨
      ∃ h, h ∉ live p.session.log ∧ h ∈ p'.session.user ∧ p'.prepared = p.prepared ++ [h]) := by
  have hwp : (prepareUser g sql).wp
      (fun r s' => (∀ st ∈ p.session.user, st ∈ s'.user) ∧ r.1 ∉ live p.session.log ∧ r.1 ∈ s'.user)
      (fun s' => ∀ st ∈ p.session.user, st ∈ s'.user) p.session := by
    refine prepareUser_wp (fun _ h => h) fun h s' hnew _ huser _ => ?_
    have hmore : ∀ st ∈ p.session.user, st ∈ s'.user := fun st hst => huser ▸ List.mem_append_left _ hst
    exact ⟨hmore, fun _ => ⟨hmore, hnew, huser ▸ List.mem_append_right _ List.mem_cons_self⟩⟩
  unfold Prog.wp at hwp
  simp only [next] at hp
  split at hp
  · next r s heq =>
    cases hp
    rw [heq] at hwp
    exact ⟨rfl, hwp.1, .inr ⟨r.1, hwp.2.1, hwp.2.2, rfl⟩⟩
  · next s heq =>
    cases hp
    rw [heq] at hwp
    exact ⟨rfl, hwp, .inl rfl⟩

theorem Keeps.prepare {sql : String} (hk : Keeps p) (hp : next g p (.prepare sql) = some p') : Keeps p' := by
  have ho := next_owned (l := .prepare sql) hk.owned trivial hp
  obtain ⟨hfinal, hmore, hsame | ⟨h, hnew, hreg, happend⟩⟩ := prepare_cases hp
  · refine ⟨ho, fun i st hi hnot => ?_, ?_⟩
    · rw [hsame] at hi
      rw [hfinal] at hnot
      exact hmore st (hk.registered i st hi hnot)
    · rw [hsame, hfinal]
      exact hk.distinct
  · -- The new one is at the end of the list, at an address no open one has.
    have hcases : ∀ (i st : Nat), p'.prepared[i]? = some st →
        p.prepared[i]? = some st ∨ (i = p.prepared.length ∧ st = h) := by
      intro i st hi
      rw [happend] at hi
      exact getElem?_concat_cases hi
    have hold : ∀ i, p.prepared[i]? = some h → i ∉ p.finalized → False := fun i hi hnot =>
      hnew (hk.owned.live_of_user (hk.registered i h hi hnot))
    refine ⟨ho, fun i st hi hnot => ?_, fun i j st hi hj hni hnj => ?_⟩
    · rw [hfinal] at hnot
      rcases hcases i st hi with hi | ⟨-, rfl⟩
      · exact hmore st (hk.registered i st hi hnot)
      · exact hreg
    · rw [hfinal] at hni hnj
      rcases hcases i st hi with hi | ⟨hi, hst⟩ <;> rcases hcases j st hj with hj | ⟨hj, hst'⟩
      · exact hk.distinct i j st hi hj hni hnj
      · exact (hold i (hst' ▸ hi) hni).elim
      · exact (hold j (hst ▸ hj) hnj).elim
      · exact hi.trans hj.symm

theorem Keeps.finalize {i : Nat} (hk : Keeps p) (hi : i ∉ p.finalized)
    (hp : next g p (.finalizeStmt (.prepared i)) = some p') : Keeps p' := by
  have ho := next_owned (l := .finalizeStmt (.prepared i)) hk.owned (fun h => absurd h hi) hp
  obtain ⟨st, hst, rfl⟩ := Option.map_eq_some_iff.mp hp
  have hst : p.prepared[i]? = some st := hst
  have hopen : ∀ j, j ∉ i :: p.finalized → j ≠ i ∧ j ∉ p.finalized := fun j hj =>
    ⟨fun heq => hj (heq ▸ List.mem_cons_self), fun hm => hj (List.mem_cons_of_mem _ hm)⟩
  refine ⟨ho, fun j k hj hnot => ?_, fun j k x hj hk' hnj hnk => ?_⟩
  · obtain ⟨hne, hnot⟩ := hopen j hnot
    have huser := hk.registered j k hj hnot
    have hkst : k ≠ st := fun h => hne (hk.distinct j i k hj (h ▸ hst) hnot hi)
    show k ∈ (finalizeUser st p.session).2.user
    rw [finalizeUser_state]
    split
    · exact (List.mem_erase_of_ne hkst).mpr huser
    · exact huser
  · exact hk.distinct j k x hj hk' (hopen j hnj).2 (hopen k hnk).2

theorem Keeps.access {st : Nat} {a : Access} (hk : Keeps p) (hc : Careful p (.on st a))
    (hp : next g p (.on st a) = some p') : Keeps p' := by
  have ho := next_owned hk.owned hc hp
  cases hp
  have huser : (a.exec g st p.session).2.user = p.session.user := by
    by_cases ha : a.CallsGuest
    · exact (Prog.wp_state (Access.exec_uses ha p.session) : Uses st p.session _).user
    · rw [Access.exec_throws ha]
  refine ⟨ho, fun i x hi hnot => ?_, hk.distinct⟩
  show x ∈ (a.exec g st p.session).2.user
  rw [huser]
  exact hk.registered i x hi hnot

theorem Keeps.next (hk : Keeps p) (ho : OwnHandles p l) (hp : next g p l = some p') : Keeps p' := by
  have hc := hk.careful ho
  cases l with
  | prepare sql => exact hk.prepare hp
  | finalizeStmt x =>
    cases x with
    | number st => exact ho.elim
    | prepared i => exact hk.finalize ho hp
  | on st a => exact hk.access hc hp

end

/-- **To keep to one's own handles is enough**: a caller that hands on only what
`prepare` returned, and nothing of a statement it has finalized, is careful. -/
theorem own_run_careful (g : Statements.Guest) (labels : List Label)
    (ho : EveryStep (next g) OwnHandles (opened g) labels) : EveryStep (next g) Careful (opened g) labels := by
  have hinit : Keeps (opened g) := ⟨opened_owned, fun i st hi => (by cases hi), fun i j st hi => (by cases hi)⟩
  exact everyStep_of_invariant (fun _ _ _ hk ho hp => hk.next ho hp) (fun _ _ hk ho => hk.careful ho) hinit ho

end PortHandles

end Sqlol

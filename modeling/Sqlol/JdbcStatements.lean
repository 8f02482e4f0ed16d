/-
The statement pointers of a JDBC connection (`DB`, `SafeStmtPtr`) over the statements
of its port's session.

Each `SafeStmtPtr` is closed once and refuses to run behind that. `DB.stmts` is a set of
them in which two are equal when their addresses are, and SQLite gives the address of a
finalized statement to a later one. `exec`, `begin` and `commit` have pointers of
their own, outside the set, and closing them takes an equal one out of it.

Every method locks the `DB`, so each is one step, from whatever thread it comes. As below,
`sqlite3_finalize` is taken not to throw (a commit listener that throws inside it would make
it); what `close` of the port throws is a label's.
-/
import Sqlol.PortHandles

namespace Sqlol

namespace JdbcStatements

open Statements (State Event live Sound Owned)
open PortHandles (Access)

/-- One statement pointer. -/
structure SafeStmtPtr where
  ptr : Nat
  closed : Bool := false
  /-- `closeException != null`. -/
  closeException : Bool := false

/-- A pointer is its place in `ptrs`, where all that were ever made are; a closed one of the set
`stmts` is not there any more. `alreadyAdded` notes the `IllegalStateException`, and `unstopped` that the
port's `close` threw before it had closed the session. -/
structure DB where
  session : State
  open_ : Bool := true
  ptrs : List SafeStmtPtr := []
  stmts : List Nat := []
  begin_ : Option Nat := none
  commit : Option Nat := none
  alreadyAdded : Bool := false
  unstopped : Bool := false

/-- A method of the `DB`. -/
abbrev Op := Prog DB

/-- How `WorkerDbPort.close` ends: `worker.stop` may throw before it closes the session, and behind that
`sqlite3_close_v2`, `closeChild` and `release` may. -/
inductive PortClose where
  | returns
  | stopThrows
  | throwsBehind
  deriving DecidableEq

namespace DB

variable (g : Statements.Guest)

/-- `call(() -> port()...)`: behind `_close` there is no port. -/
def onPort {α : Type} (p : Statements.Op α) : Op α := do
  Prog.throwIf !(← Prog.get).open_
  Prog.within DB.session (fun db s => { db with session := s }) p

/-- `prepare(String)`. -/
def newPtr (sql : String) : Op Nat := do
  let (st, _) ← onPort (Statements.prepareUser g sql)
  let k := (← Prog.get).ptrs.length
  Prog.modify fun db => { db with ptrs := db.ptrs ++ [{ ptr := st }] }
  pure k

/-- A field of a pointer set. -/
def setPtr (k : Nat) (f : SafeStmtPtr → SafeStmtPtr) : Op Unit :=
  Prog.modify fun db => { db with ptrs := db.ptrs.modify k f }

/-- The address of a pointer. -/
def address (db : DB) (k : Nat) : Option Nat := db.ptrs[k]?.map (·.ptr)

/-- `finalize(safePtr, ptr)`. -/
def finalize (k : Nat) (ptr : Nat) : Op Unit :=
  Prog.tryFinally (onPort (Statements.finalizeUser ptr))
    (Prog.modify fun db => { db with stmts := db.stmts.filter fun j => db.address j ≠ db.address k })

/-- `SafeStmtPtr.close`; the return code is always 0. -/
def close (k : Nat) : Op Unit := do
  match (← Prog.get).ptrs[k]? with
  | none => pure ()
  | some p =>
    Prog.tryFinally
      (if p.closed then Prog.throwIf p.closeException
      else Prog.onThrow (finalize k p.ptr) (setPtr k fun p => { p with closeException := true }))
      (setPtr k fun p => { p with closed := true })

/-- `if (pointer != null) pointer.close()`. -/
def closeSome : Option Nat → Op Unit
  | none => pure ()
  | some k => close k

/-- `safeRun` and its likes. -/
def safeRun {α : Type} (k : Nat) (run : Nat → Op α) : Op α := do
  match (← Prog.get).ptrs[k]? with
  | none => Prog.throw
  | some p => do
    Prog.throwIf p.closed
    run p.ptr

/-- `prepare(CoreStatement)`; `old` is the statement's pointer so far. -/
def prepare (old : Option Nat) (sql : String) : Op Unit := do
  closeSome old
  let k ← newPtr g sql
  let db ← Prog.get
  if ∃ j ∈ db.stmts, db.address j = db.address k then do
    Prog.modify fun db => { db with alreadyAdded := true }
    Prog.throw
  else Prog.modify fun db => { db with stmts := k :: db.stmts }

/-- Of `ensureBeginAndCommit`, for `begin`. -/
def ensureBegin : Op Unit := do
  match (← Prog.get).begin_ with
  | some _ => pure ()
  | none => do
    let k ← newPtr g "begin;"
    Prog.modify fun db => { db with begin_ := some k }

/-- The same for `commit`. -/
def ensureCommit : Op Unit := do
  match (← Prog.get).commit with
  | some _ => pure ()
  | none => do
    let k ← newPtr g "commit;"
    Prog.modify fun db => { db with commit := some k }

/-- `ensureAutocommit(beginPtr, commitPtr)`. -/
def beginAndCommit (beginPtr commitPtr : Nat) : Op Unit :=
  Prog.tryFinally
    (do
      let rc ← onPort (PortHandles.step g beginPtr)
      if rc ≠ Statements.DONE then pure ()
      else do
        let rc ← onPort (PortHandles.step g commitPtr)
        if rc ≠ Statements.DONE then do
          let _ ← onPort (PortHandles.reset g commitPtr)
          Prog.throw
        else pure ())
    (do
      let _ ← onPort (PortHandles.reset g beginPtr)
      let _ ← onPort (PortHandles.reset g commitPtr))

/-- `ensureAutoCommit(boolean)`. -/
def ensureAutoCommit (autoCommit : Bool) : Op Unit := do
  if !autoCommit then pure ()
  else do
    ensureBegin g
    ensureCommit g
    match (← Prog.get).begin_, (← Prog.get).commit with
    | some b, some c => safeRun b fun beginPtr => safeRun c fun commitPtr => beginAndCommit g beginPtr commitPtr
    | _, _ => Prog.throw

/-- `exec(String, boolean)`. -/
def exec (sql : String) (autoCommit : Bool) : Op Unit := do
  let k ← newPtr g sql
  Prog.tryFinally
    (do
      let rc ← safeRun k fun ptr => onPort (PortHandles.step g ptr)
      if rc = Statements.DONE then ensureAutoCommit g autoCommit
      else Prog.throwIf (rc ≠ Statements.ROW))
    (close k)

/-- `element.close()` for each. -/
def closeAll : List Nat → Op Unit
  | [] => pure ()
  | k :: ks => do
    close k
    closeAll ks

/-- `WorkerDbPort.close`: the session finalizes what is left. -/
def portClose (c : PortClose) : Op Unit := match c with
  | .stopThrows => do
    Prog.modify fun db => { db with unstopped := true }
    Prog.throw
  | .returns | .throwsBehind => do
    Prog.within DB.session (fun db s => { db with session := s }) Statements.close
    Prog.throwIf (c == .throwsBehind)

/-- `WorkerDB._close`: the port is gone before it is closed. -/
def _close (c : PortClose) : Op Unit := do
  if (← Prog.get).open_ then do
    Prog.modify fun db => { db with open_ := false }
    portClose c
  else pure ()

/-- The iterator of the concurrent set meets what is there, each element closed as it comes. -/
def closeDB (c : PortClose) : Op Unit := do
  closeAll (← Prog.get).stmts
  closeSome (← Prog.get).begin_
  closeSome (← Prog.get).commit
  _close c

end DB

/-- The calls. -/
inductive Label where
  | prepare (old : Option Nat) (sql : String)
  /-- Anything done with a statement's pointer. -/
  | on (k : Nat) (a : Access)
  | exec (sql : String) (autoCommit : Bool)
  | ensureAutoCommit (autoCommit : Bool)
  /-- A pointer is closed: by its statement, or behind a failed execution. -/
  | close (k : Nat)
  | closeDB (c : PortClose)

/-- The method of a label. -/
def program (g : Statements.Guest) : Label → Op Unit
  | .prepare old sql => DB.prepare g old sql
  | .on k a => DB.safeRun k fun ptr => DB.onPort (a.exec g ptr)
  | .exec sql autoCommit => DB.exec g sql autoCommit
  | .ensureAutoCommit autoCommit => DB.ensureAutoCommit g autoCommit
  | .close k => DB.close k
  | .closeDB c => DB.closeDB c

/-- A call, and the `DB` behind it. -/
def step (g : Statements.Guest) (db : DB) (l : Label) : Option DB := some (program g l db).2

/-- A connection just opened. -/
def opened (g : Statements.Guest) : DB := { session := (PortHandles.opened g).session }

/-- What holds between two calls, but for the pointers in `loose`, which are open and nobody's. -/
structure Inv (loose : List Nat) (db : DB) : Prop where
  owned : Owned [] db.session
  /-- An open pointer's statement is registered, at an address no other open one has. -/
  registered : ∀ (k : Nat) p, db.ptrs[k]? = some p → p.closed = false → p.ptr ∈ db.session.user
  distinct : ∀ (j k : Nat) p q, db.ptrs[j]? = some p → db.ptrs[k]? = some q → p.closed = false → q.closed = false →
    p.ptr = q.ptr → j = k
  clean : ∀ (k : Nat) p, db.ptrs[k]? = some p → p.closeException = false
  /-- The set has open pointers. -/
  stmts : ∀ k ∈ db.stmts, ∃ p, db.ptrs[k]? = some p ∧ p.closed = false
  /-- An open pointer is in the set or one of the connection's own. -/
  known : ∀ (k : Nat) p, db.ptrs[k]? = some p → p.closed = false →
    k ∈ db.stmts ∨ db.begin_ = some k ∨ db.commit = some k ∨ k ∈ loose
  added : db.alreadyAdded = false
  ended : db.open_ = false →
    (db.unstopped = false → live db.session.log = []) ∧ ∀ (k : Nat) p, db.ptrs[k]? = some p → p.closed = true

section
variable {g : Statements.Guest} {loose : List Nat} {db db' : DB} {k : Nat} {α : Type}

theorem Inv.weaken (h : Inv loose db) {loose' : List Nat} (hsub : ∀ j ∈ loose, j ∈ loose') : Inv loose' db :=
  { h with known := fun j p hj hp => (h.known j p hj hp).imp_right (·.imp_right (·.imp_right (hsub j))) }

/-! ## The port -/

theorem wp_onPort {p : Statements.Op α} {Q : α → DB → Prop} {E : DB → Prop} : (DB.onPort p).wp Q E db ↔
    if db.open_ then p.wp (fun a s => Q a { db with session := s }) (fun s => E { db with session := s }) db.session
    else E db := by
  rw [DB.onPort, Prog.wp_bind, Prog.wp_get, Prog.wp_bind, Prog.wp_throwIf]
  by_cases hopen : db.open_ = true
  · rw [if_pos hopen, if_neg (by rw [hopen]; decide)]
    exact Prog.wp_within
  · rw [if_neg hopen, if_pos (by simpa using hopen)]

/-- A call of the port, when there is one. -/
theorem onPort_wp {p : Statements.Op α} {Q : α → DB → Prop} {E : DB → Prop}
    (hopen : db.open_ = true → p.wp (fun a s => Q a { db with session := s }) (fun s => E { db with session := s })
      db.session)
    (hno : E db) : (DB.onPort p).wp Q E db := by
  rw [wp_onPort]
  split
  · next h => exact hopen h
  · exact hno

/-- Between the calls of one `safeRun` the user's statements stay. -/
def Stays (loose user : List Nat) (db : DB) : Prop := Inv loose db ∧ db.session.user = user

/-- The guest is called with a registered statement only. -/
theorem onPort_stays {p : Statements.Op α} {st : Nat} {user : List Nat} (hst : st ∈ user)
    (hp : PortHandles.Confined st p) :
    Prog.Keeps (Stays loose user) (DB.onPort p) := by
  intro db ⟨h, huser⟩
  refine onPort_wp (fun hopen => ?_) ⟨h, huser⟩
  have hkeep : ∀ s', PortHandles.Only st db.session s' → Stays loose user { db with session := s' } := fun s' ho =>
    ⟨{ h with
        owned := ho.owned h.owned (huser ▸ hst)
        registered := fun j p hj hp => by rw [ho.user]; exact h.registered j p hj hp
        ended := fun hno => absurd hopen (by rw [hno]; decide) }, ho.user.trans huser⟩
  exact Prog.wp_mono (hp db.session) (fun _ => hkeep) hkeep

/-! ## Pointers -/

theorem Inv.address_eq {j : Nat} {p q : SafeStmtPtr} (h : Inv loose db) (hj : db.ptrs[j]? = some p)
    (hk : db.ptrs[k]? = some q) (hp : p.closed = false) (hq : q.closed = false) :
    db.address j = db.address k ↔ j = k := by
  rw [DB.address, DB.address, hj, hk]
  refine ⟨fun heq => h.distinct j k p q hj hk hp hq (Option.some.inj heq), fun heq => ?_⟩
  subst heq
  rw [Option.some.inj (hj.symm.trans hk)]

/-- A new pointer is open, and nobody's yet. -/
theorem newPtr_wp {sql : String} (h : Inv loose db) : (DB.newPtr g sql).wp
    (fun k db' => Inv (k :: loose) db' ∧ k = db.ptrs.length ∧ (∃ st, db'.ptrs = db.ptrs ++ [{ ptr := st }]) ∧
      db'.stmts = db.stmts ∧ db'.begin_ = db.begin_ ∧ db'.commit = db.commit)
    (Inv loose) db := by
  rw [DB.newPtr, Prog.wp_bind]
  refine onPort_wp (fun hopen => ?_) h
  have hended : ∀ {P : Prop}, db.open_ = false → P := fun hno => absurd hopen (by rw [hno]; decide)
  refine PortHandles.prepareUser_wp ?_ fun st s' hnew hcache huser hlog => ?_
  · exact { h with ended := hended, owned := ⟨h.owned.sound, h.owned.nodup, h.owned.owned⟩ }
  have howned : Owned [] s' := by
    have hloose : Owned [st] { db.session with log := .prepared st :: db.session.log } :=
      h.owned.prepared hnew rfl rfl rfl
    exact (hloose.keep.used List.mem_cons_self (.inr hlog) hcache huser).1
  have hreg : ∀ (j : Nat) p, db.ptrs[j]? = some p → p.closed = false → p.ptr ∈ s'.user := fun j p hj hp => by
    rw [huser]
    exact List.mem_append_left _ (h.registered j p hj hp)
  refine ⟨{ h with owned := howned, registered := hreg, ended := hended }, fun n => ?_⟩
  have hcases : ∀ (j : Nat) p, (db.ptrs ++ [{ ptr := st }])[j]? = some p →
      db.ptrs[j]? = some p ∨ (j = db.ptrs.length ∧ p = { ptr := st }) := fun j p => Statements.getElem?_concat_cases
  have hold : ∀ (j : Nat) p, db.ptrs[j]? = some p → (db.ptrs ++ [{ ptr := st }])[j]? = some p := fun j p hj => by
    rw [List.getElem?_append_left (List.getElem?_eq_some_iff.mp hj).1, hj]
  -- No open pointer has the new address.
  have hfresh : ∀ (j : Nat) p, db.ptrs[j]? = some p → p.closed = false → p.ptr ≠ st := fun j p hj hp heq =>
    hnew (h.owned.live_of_user (heq ▸ h.registered j p hj hp))
  show Inv (db.ptrs.length :: loose) { db with session := s', ptrs := db.ptrs ++ [{ ptr := st }] } ∧ _
  refine ⟨⟨howned, fun j p hj hp => ?_, fun j k p q hj hk hp hq heq => ?_, fun j p hj => ?_, fun j hj => ?_,
    fun j p hj hp => ?_, h.added, hended⟩, rfl, ⟨st, rfl⟩, rfl, rfl, rfl⟩
  · rcases hcases j p hj with hj | ⟨-, rfl⟩
    · exact hreg j p hj hp
    · rw [huser]
      exact List.mem_append_right _ List.mem_cons_self
  · rcases hcases j p hj with hj' | ⟨hj', rfl⟩ <;> rcases hcases k q hk with hk' | ⟨hk', rfl⟩
    · exact h.distinct j k p q hj' hk' hp hq heq
    · exact absurd heq (hfresh j p hj' hp)
    · exact absurd heq.symm (hfresh k q hk' hq)
    · exact hj'.trans hk'.symm
  · rcases hcases j p hj with hj | ⟨-, rfl⟩
    · exact h.clean j p hj
    · rfl
  · obtain ⟨p, hp, ho⟩ := h.stmts j hj
    exact ⟨p, hold j p hp, ho⟩
  · rcases hcases j p hj with hj | ⟨hj, -⟩
    · exact (h.known j p hj hp).imp_right (·.imp_right (·.imp_right (List.mem_cons_of_mem _)))
    · exact .inr (.inr (.inr (hj ▸ List.mem_cons_self)))

/-- What closing a pointer leaves as it was. -/
structure Gone (k : Nat) (db db' : DB) : Prop where
  stmts : ∀ j ∈ db'.stmts, j ∈ db.stmts ∧ j ≠ k
  begin_ : db'.begin_ = db.begin_
  commit : db'.commit = db.commit
  open_ : db'.open_ = db.open_
  session : db.open_ = false → db'.session = db.session
  before : ∀ (j : Nat) p, db'.ptrs[j]? = some p → p.closed = false → db.ptrs[j]? = some p
  closed : ∀ p, db'.ptrs[k]? = some p → p.closed = true

theorem getElem?_setClosed {ptrs : List SafeStmtPtr} {j : Nat} {p : SafeStmtPtr}
    (hj : (ptrs.modify k fun p => { p with closed := true })[j]? = some p) :
    (j = k ∧ p.closed = true ∧ ∃ q, ptrs[k]? = some q ∧ q.closeException = p.closeException) ∨
      (j ≠ k ∧ ptrs[j]? = some p) := by
  by_cases hjk : k = j
  · subst hjk
    rw [List.getElem?_modify_eq] at hj
    obtain ⟨q, hq, rfl⟩ := Option.map_eq_some_iff.mp hj
    exact .inl ⟨rfl, rfl, q, hq, rfl⟩
  · rw [List.getElem?_modify_ne _ _ hjk] at hj
    exact .inr ⟨Ne.symm hjk, hj⟩

/-- The pointers as `close` leaves them. -/
theorem Inv.setClosed {s' : State} {stmts : List Nat} (h : Inv (k :: loose) db) (howned : Owned [] s')
    (hreg : ∀ (j : Nat) p, j ≠ k → db.ptrs[j]? = some p → p.closed = false → p.ptr ∈ s'.user)
    (hstmts : ∀ j, j ∈ stmts ↔ j ∈ db.stmts ∧ j ≠ k) (hended : db.open_ = false → s' = db.session) :
    Inv loose { db with session := s', stmts, ptrs := db.ptrs.modify k fun p => { p with closed := true } } ∧
      Gone k db { db with session := s', stmts, ptrs := db.ptrs.modify k fun p => { p with closed := true } } := by
  have hopen : ∀ (j : Nat) p, (db.ptrs.modify k fun p => { p with closed := true })[j]? = some p → p.closed = false →
      j ≠ k ∧ db.ptrs[j]? = some p := by
    intro j p hj hp
    rcases getElem?_setClosed hj with ⟨-, hc, -⟩ | hj
    · exact absurd hp (by rw [hc]; decide)
    · exact hj
  refine ⟨⟨howned, fun j p hj hp => ?_, fun i j p q hi hj hp hq heq => ?_, fun j p hj => ?_, fun j hj => ?_,
    fun j p hj hp => ?_, h.added, fun hno => ⟨hended hno ▸ (h.ended hno).1, fun j p hj => ?_⟩⟩, fun j hj => ?_,
    rfl, rfl, rfl,
    hended, fun j p hj hp => (hopen j p hj hp).2, fun p hp => ?_⟩
  · exact hreg j p (hopen j p hj hp).1 (hopen j p hj hp).2 hp
  · exact h.distinct i j p q (hopen i p hi hp).2 (hopen j q hj hq).2 hp hq heq
  · rcases getElem?_setClosed hj with ⟨-, -, q, hq, he⟩ | ⟨-, hj⟩
    · rw [← he]
      exact h.clean k q hq
    · exact h.clean j p hj
  · obtain ⟨hj, hne⟩ := (hstmts j).mp hj
    obtain ⟨p, hp, ho⟩ := h.stmts j hj
    refine ⟨p, ?_, ho⟩
    show (db.ptrs.modify k _)[j]? = some p
    rw [List.getElem?_modify_ne _ _ hne.symm, hp]
  · obtain ⟨hne, hj⟩ := hopen j p hj hp
    rcases h.known j p hj hp with hs | hb | hc | hl
    · exact .inl ((hstmts j).mpr ⟨hs, hne⟩)
    · exact .inr (.inl hb)
    · exact .inr (.inr (.inl hc))
    · exact .inr (.inr (.inr ((List.mem_cons.mp hl).resolve_left hne)))
  · rcases getElem?_setClosed hj with ⟨-, hc, -⟩ | ⟨-, hj⟩
    · exact hc
    · exact (h.ended hno).2 j p hj
  · exact (hstmts j).mp hj
  · rcases getElem?_setClosed hp with ⟨-, hc, -⟩ | ⟨hne, -⟩
    · exact hc
    · exact absurd rfl hne

/-- A pointer can be closed at any time, and again. -/
theorem close_wp (h : Inv (k :: loose) db) :
    (DB.close k).wp (fun _ db' => Inv loose db' ∧ Gone k db db') (fun _ => False) db := by
  rw [DB.close, Prog.wp_bind, Prog.wp_get]
  cases hk : db.ptrs[k]? with
  | none =>
    have hne : ∀ (j : Nat) p, db.ptrs[j]? = some p → j ≠ k := fun j p hj heq => by
      rw [heq, hk] at hj
      cases hj
    refine ⟨{ h with known := fun j p hj hp => ?_ }, fun j hj => ?_, rfl, rfl, rfl, fun _ => rfl,
      fun _ _ hj _ => hj, fun p hp => ?_⟩
    · exact (h.known j p hj hp).imp_right (·.imp_right (·.imp_right
        fun hl => (List.mem_cons.mp hl).resolve_left (hne j p hj)))
    · obtain ⟨p, hp, -⟩ := h.stmts j hj
      exact ⟨hj, hne j p hp⟩
    · rw [hk] at hp
      cases hp
  | some p =>
    have hreg : ∀ (j : Nat) q, j ≠ k → db.ptrs[j]? = some q → q.closed = false → q.ptr ∈ db.session.user :=
      fun j q _ => h.registered j q
    rw [Prog.wp_tryFinally]
    by_cases hp : p.closed = true
    · rw [if_pos hp, Prog.wp_throwIf, h.clean k p hk]
      refine h.setClosed h.owned hreg (fun j => ⟨fun hj => ⟨hj, fun heq => ?_⟩, And.left⟩) fun _ => rfl
      obtain ⟨q, hq, ho⟩ := h.stmts j hj
      rw [heq, hk] at hq
      cases hq
      rw [hp] at ho
      cases ho
    · rw [if_neg hp, Prog.wp_onThrow, DB.finalize, Prog.wp_tryFinally]
      have hp : p.closed = false := by simpa using hp
      have huser : p.ptr ∈ db.session.user := h.registered k p hk hp
      have hopen : db.open_ = true := by
        by_contra hno
        rw [(h.ended (by simpa using hno)).2 k p hk] at hp
        cases hp
      have hfinal : Statements.finalizeUser p.ptr db.session = (some (),
          { db.session with user := db.session.user.erase p.ptr, log := .finalized p.ptr :: db.session.log }) := by
        rw [Statements.finalizeUser, Prog.bind_of_some (show Prog.get db.session = _ from rfl), if_pos huser]
        rfl
      rw [wp_onPort, if_pos hopen]
      unfold Prog.wp
      rw [hfinal]
      refine h.setClosed (h.owned.finalized huser) (fun j q hne hj hq => ?_) (fun j => ?_)
        fun hno => absurd hopen (by rw [hno]; decide)
      · refine (List.mem_erase_of_ne fun heq => hne ?_).mpr (h.registered j q hj hq)
        exact h.distinct j k q p hj hk hq hp heq
      · -- In the set, an equal address is the same pointer.
        rw [List.mem_filter]
        refine and_congr_right fun hj => ?_
        obtain ⟨q, hq, ho⟩ := h.stmts j hj
        exact decide_eq_true_iff.trans (not_congr (h.address_eq hq hk ho hp))

/-! ## Programs -/

theorem confined_access (a : Access) (st : Nat) : PortHandles.Confined st (a.exec g st) := by
  by_cases ha : a.CallsGuest
  · exact (Access.exec_uses ha).confined
  · intro s
    have hsame : PortHandles.Only st s (a.exec g st s).2 := by
      rw [Access.exec_throws ha]
      exact .refl
    unfold Prog.wp
    split
    · next heq => rw [heq] at hsame; exact hsame
    · next heq => rw [heq] at hsame; exact hsame

theorem confined_reset (st : Nat) : PortHandles.Confined st (PortHandles.reset g st) :=
  PortHandles.touching_reset.confined

theorem confined_step (st : Nat) : PortHandles.Confined st (PortHandles.step g st) := PortHandles.confined_stepLoop

/-- What runs on an open pointer runs on a registered statement. -/
theorem safeRun_keeps {P : DB → Prop} {run : Nat → Op α} (hP : ∀ db, P db → Inv loose db)
    (hrun : ∀ db st, P db → st ∈ db.session.user → (run st).wp (fun _ => P) P db) :
    Prog.Keeps P (DB.safeRun k run) := by
  intro db h
  rw [DB.safeRun, Prog.wp_bind, Prog.wp_get]
  cases hk : db.ptrs[k]? with
  | none => exact h
  | some p =>
    rw [Prog.wp_bind, Prog.wp_throwIf]
    split
    · exact h
    · next hp => exact hrun db p.ptr h ((hP db h).registered k p hk (by simpa using hp))

theorem safeRun_stays {p : Nat → Statements.Op α} (hp : ∀ st, PortHandles.Confined st (p st)) :
    Prog.Keeps (Inv loose) (DB.safeRun k fun ptr => DB.onPort (p ptr)) :=
  safeRun_keeps (fun _ => id) fun db st h hst =>
    Prog.wp_mono (onPort_stays hst (hp st) db ⟨h, rfl⟩) (fun _ _ => And.left) fun _ => And.left

theorem beginAndCommit_stays {user : List Nat} {b c : Nat} (hb : b ∈ user) (hc : c ∈ user) :
    Prog.Keeps (Stays loose user) (DB.beginAndCommit g b c) := by
  have hkeep : ∀ (st : Nat) {β : Type} {p : Statements.Op β}, st ∈ user → PortHandles.Confined st p →
      Prog.Keeps (Stays loose user) (DB.onPort p) := fun _ _ _ => onPort_stays
  have hbegin := hkeep b hb (confined_step (g := g) b)
  have hcommit := hkeep c hc (confined_step (g := g) c)
  have hreset := hkeep b hb (confined_reset (g := g) b)
  have hreset' := hkeep c hc (confined_reset (g := g) c)
  refine Prog.Keeps.tryFinally (hbegin.bind fun rc => ?_)
    (hreset.bind fun _ => hreset'.bind fun _ => Prog.keeps_pure ())
  split
  · exact Prog.keeps_pure ()
  · refine hcommit.bind fun rc => ?_
    split
    · exact hreset'.bind fun _ _ h => h
    · exact Prog.keeps_pure ()

theorem Inv.ownBegin (h : Inv (k :: loose) db) (hno : db.begin_ = none) : Inv loose { db with begin_ := some k } := by
  refine { h with known := fun j p hj hp => ?_ }
  rcases h.known j p hj hp with hs | hb | hc | hl
  · exact .inl hs
  · rw [hno] at hb
    cases hb
  · exact .inr (.inr (.inl hc))
  · rcases List.mem_cons.mp hl with rfl | hl
    · exact .inr (.inl rfl)
    · exact .inr (.inr (.inr hl))

theorem Inv.ownCommit (h : Inv (k :: loose) db) (hno : db.commit = none) : Inv loose { db with commit := some k } := by
  refine { h with known := fun j p hj hp => ?_ }
  rcases h.known j p hj hp with hs | hb | hc | hl
  · exact .inl hs
  · exact .inr (.inl hb)
  · rw [hno] at hc
    cases hc
  · rcases List.mem_cons.mp hl with rfl | hl
    · exact .inr (.inr (.inl rfl))
    · exact .inr (.inr (.inr hl))

theorem ensureBegin_keeps : Prog.Keeps (Inv loose) (DB.ensureBegin g) := by
  intro db h
  rw [DB.ensureBegin, Prog.wp_bind, Prog.wp_get]
  cases hb : db.begin_ with
  | some k => exact h
  | none => exact Prog.wp_then (newPtr_wp h) fun k db' ⟨hk, _, _, _, hbegin, _⟩ => hk.ownBegin (hbegin.trans hb)

theorem ensureCommit_keeps : Prog.Keeps (Inv loose) (DB.ensureCommit g) := by
  intro db h
  rw [DB.ensureCommit, Prog.wp_bind, Prog.wp_get]
  cases hc : db.commit with
  | some k => exact h
  | none => exact Prog.wp_then (newPtr_wp h) fun k db' ⟨hk, _, _, _, _, hcommit⟩ => hk.ownCommit (hcommit.trans hc)

theorem ensureAutoCommit_keeps (autoCommit : Bool) : Prog.Keeps (Inv loose) (DB.ensureAutoCommit g autoCommit) := by
  cases autoCommit with
  | false => exact Prog.keeps_pure ()
  | true =>
    refine ensureBegin_keeps.bind fun _ => ensureCommit_keeps.bind fun _ => Prog.keeps_get.bind fun db₁ =>
      Prog.keeps_get.bind fun db₂ => ?_
    split
    · next _ k _ _ =>
      refine safeRun_keeps (fun _ => id) fun db b h hb => ?_
      have hinner : Prog.Keeps (Stays loose db.session.user) (DB.safeRun k fun c => DB.beginAndCommit g b c) :=
        safeRun_keeps (fun _ => And.left) fun db' c h' hc => beginAndCommit_stays hb (h'.2 ▸ hc) db' h'
      exact Prog.wp_mono (hinner db ⟨h, rfl⟩) (fun _ _ => And.left) fun _ => And.left
    · exact fun _ h => h

theorem exec_keeps (sql : String) (autoCommit : Bool) : Prog.Keeps (Inv loose) (DB.exec g sql autoCommit) := by
  intro db h
  refine Prog.wp_then (newPtr_wp h) fun k db' ⟨hk, _⟩ => ?_
  have hbody : Prog.Keeps (Inv (k :: loose)) (do
      let rc ← DB.safeRun k fun ptr => DB.onPort (PortHandles.step g ptr)
      if rc = Statements.DONE then DB.ensureAutoCommit g autoCommit
      else Prog.throwIf (rc ≠ Statements.ROW)) := by
    refine (safeRun_stays confined_step).bind fun rc => ?_
    split
    · exact ensureAutoCommit_keeps autoCommit
    · exact Prog.keeps_throwIf _
  rw [Prog.wp_tryFinally]
  have hclose : ∀ db'', Inv (k :: loose) db'' → (DB.close k).wp (fun _ => Inv loose) (Inv loose) db'' := fun db'' h'' =>
    Prog.wp_mono (close_wp h'') (fun _ _ => And.left) fun _ => False.elim
  exact Prog.wp_mono (hbody db' hk) (fun _ => hclose) hclose

theorem closePtr_keeps : Prog.Keeps (Inv loose) (DB.close k) := fun _ h =>
  Prog.wp_mono (close_wp (h.weaken fun _ => List.mem_cons_of_mem k)) (fun _ _ => And.left) fun _ => False.elim

theorem closeSome_keeps (old : Option Nat) : Prog.Keeps (Inv loose) (DB.closeSome old) := by
  cases old with
  | none => exact Prog.keeps_pure ()
  | some k => exact closePtr_keeps

/-- A new pointer is equal to none in the set. -/
theorem prepare_keeps (old : Option Nat) (sql : String) : Prog.Keeps (Inv []) (DB.prepare g old sql) := by
  refine (closeSome_keeps old).bind fun _ db h => Prog.wp_then (newPtr_wp h)
    fun k db' ⟨hk, hlen, ⟨st, hptrs⟩, hstmts, _, _⟩ => ?_
  have hnew : db'.ptrs[k]? = some { ptr := st } := by rw [hptrs, hlen, List.getElem?_concat_length]
  have hnot : k ∉ db'.stmts := fun hmem => by
    obtain ⟨p, hp, -⟩ := h.stmts k (hstmts ▸ hmem)
    have := (List.getElem?_eq_some_iff.mp hp).1
    omega
  have hadd : ¬∃ j ∈ db'.stmts, db'.address j = db'.address k := fun ⟨j, hj, heq⟩ => by
    obtain ⟨p, hp, ho⟩ := hk.stmts j hj
    exact hnot ((hk.address_eq hp hnew ho rfl).mp heq ▸ hj)
  rw [Prog.wp_bind, Prog.wp_get, if_neg hadd]
  refine { hk with stmts := fun j hj => ?_, known := fun j p hj hp => ?_ }
  · rcases List.mem_cons.mp hj with rfl | hj
    · exact ⟨_, hnew, rfl⟩
    · exact hk.stmts j hj
  · rcases hk.known j p hj hp with hs | hb | hc | hl
    · exact .inl (List.mem_cons_of_mem _ hs)
    · exact .inr (.inl hb)
    · exact .inr (.inr (.inl hc))
    · exact .inl ((List.mem_singleton.mp hl) ▸ List.mem_cons_self)

/-! ## The end of the connection -/

theorem closeAll_wp : ∀ {ks : List Nat} {db : DB}, Inv [] db → (∀ j ∈ db.stmts, j ∈ ks) →
    (DB.closeAll ks).wp (fun _ db' => Inv [] db' ∧ db'.stmts = [] ∧ db'.open_ = db.open_) (fun _ => False) db
  | [], db, h, hks => ⟨h, List.eq_nil_iff_forall_not_mem.mpr (fun j hj => by cases hks j hj), rfl⟩
  | k :: ks, db, h, hks => by
    refine Prog.wp_then (close_wp (h.weaken fun _ => List.mem_cons_of_mem k)) fun _ db' ⟨h', hgone⟩ => ?_
    rw [← hgone.open_]
    refine closeAll_wp h' fun j hj => ?_
    obtain ⟨hold, hne⟩ := hgone.stmts j hj
    exact (List.mem_cons.mp (hks j hold)).resolve_left hne

/-- The session finalizes what is left in it. -/
theorem session_close_wp {s : State} (h : Owned [] s) :
    Statements.close.wp (fun _ s' => live s'.log = [] ∧ Owned [] s') (fun _ => False) s := by
  have howned : (s.user ++ s.cache.map Prod.snd).Perm (live s.log) := List.perm_append_comm.trans h.owned
  unfold Statements.close
  rw [Prog.wp_bind, Prog.wp_get]
  refine Prog.wp_then (Statements.finalizeAll_wp howned h.sound) fun _ s₁ hfirst => ?_
  obtain ⟨log₁, rfl, hcached, hsound⟩ := hfirst
  simp only [Prog.wp_bind, Prog.wp_modify, Prog.wp_get]
  rw [← List.append_nil (List.map _ _)] at hcached
  refine Prog.wp_mono (Statements.finalizeAll_wp (s := { s with log := log₁, user := [] }) hcached hsound)
    (fun _ s₂ hlast => ?_) fun _ => id
  obtain ⟨log₂, rfl, hnone, hsound⟩ := hlast
  have hlive : live log₂ = [] := List.nil_perm.mp hnone
  exact ⟨hlive, hsound, by rw [hlive]; exact .nil, by rw [hlive]; exact .nil⟩

/-- No pointer is open, and no statement is left if the session was closed. -/
structure Ended (db : DB) : Prop extends Inv [] db where
  shut : db.open_ = false
  stmts_nil : db.stmts = []

/-- What `close` does: it throws where the port's does, and ends the connection all the same. -/
def Closes (db : DB) (c : PortClose) (r : Option Unit) (db' : DB) : Prop :=
  Ended db' ∧ (r = none ↔ db.open_ = true ∧ c ≠ .returns) ∧
    (db.open_ = true → c ≠ .stopThrows → live db'.session.log = [])

/-- Where the connection's own pointers are closed, all are. -/
theorem _close_wp (h : Inv [] db) (hstmts : db.stmts = [])
    (hbegin : ∀ b p, db.begin_ = some b → db.ptrs[b]? = some p → p.closed = true)
    (hcommit : ∀ c p, db.commit = some c → db.ptrs[c]? = some p → p.closed = true) (c : PortClose) :
    (DB._close c).wp (fun a => Closes db c (some a)) (Closes db c none) db := by
  have hall : ∀ (k : Nat) p, db.ptrs[k]? = some p → p.closed = true := by
    intro k p hk
    by_contra hp
    rcases h.known k p hk (by simpa using hp) with hs | hb | hc | hl
    · rw [hstmts] at hs
      cases hs
    · exact hp (hbegin k p hb hk)
    · exact hp (hcommit k p hc hk)
    · cases hl
  have hno : ∀ {P : Prop} {k : Nat} {p : SafeStmtPtr}, db.ptrs[k]? = some p → p.closed = false → P := fun hk hp =>
    absurd (hall _ _ hk) (by rw [hp]; decide)
  rw [DB._close, Prog.wp_bind, Prog.wp_get]
  by_cases hopen : db.open_ = true
  case neg =>
    rw [if_neg hopen]
    exact ⟨⟨h, by simpa using hopen, hstmts⟩, ⟨nofun, fun hc => absurd hc.1 hopen⟩, fun hc => absurd hc hopen⟩
  rw [if_pos hopen, Prog.wp_bind, Prog.wp_modify]
  have hsession : c ≠ .stopThrows → (Prog.within DB.session (fun db s => { db with session := s }) Statements.close).wp
      (fun _ db' => Ended db' ∧ live db'.session.log = []) (fun _ => False) { db with open_ := false } := fun _ => by
    rw [Prog.wp_within]
    refine Prog.wp_mono (session_close_wp h.owned) (fun _ s' ⟨hlive, howned⟩ => ⟨?_, hlive⟩) fun _ => id
    exact ⟨{ h with owned := howned, registered := fun _ _ => hno, ended := fun _ => ⟨fun _ => hlive, hall⟩ }, rfl,
      hstmts⟩
  cases c with
  | stopThrows =>
    refine ⟨⟨{ h with ended := fun _ => ⟨nofun, hall⟩ }, rfl, hstmts⟩, ⟨fun _ => ⟨hopen, nofun⟩, fun _ => rfl⟩, ?_⟩
    exact fun _ hc => absurd rfl hc
  | returns =>
    refine Prog.wp_mono (Prog.wp_then (hsession nofun) fun _ db' h' => ?_) (fun _ _ => id) fun _ => False.elim
    exact ⟨h'.1, ⟨nofun, fun hc => absurd rfl hc.2⟩, fun _ _ => h'.2⟩
  | throwsBehind =>
    refine Prog.wp_bind.mpr (Prog.wp_mono (hsession nofun) (fun _ db' h' => ?_) fun _ => False.elim)
    exact ⟨h'.1, ⟨fun _ => ⟨hopen, nofun⟩, fun _ => rfl⟩, fun _ _ => h'.2⟩

theorem closeDB_wp (h : Inv [] db) (c : PortClose) :
    (DB.closeDB c).wp (fun a => Closes db c (some a)) (Closes db c none) db := by
  rw [DB.closeDB, Prog.wp_bind, Prog.wp_get]
  refine Prog.wp_bind.mpr (Prog.wp_mono (closeAll_wp h fun _ => id) (fun _ db₁ ⟨h₁, hs₁, ho₁⟩ => ?_) fun _ =>
    False.elim)
  rw [Prog.wp_bind, Prog.wp_get]
  have hclose : ∀ (old : Option Nat) db, Inv [] db → db.stmts = [] → (DB.closeSome old).wp
      (fun _ db' => Inv [] db' ∧ db'.stmts = [] ∧ db'.begin_ = db.begin_ ∧ db'.commit = db.commit ∧
        (∀ (j : Nat) p, db'.ptrs[j]? = some p → p.closed = false → db.ptrs[j]? = some p) ∧
        (∀ k p, old = some k → db'.ptrs[k]? = some p → p.closed = true) ∧ db'.open_ = db.open_) (fun _ => False)
          db := by
    intro old db h hs
    cases old with
    | none => exact ⟨h, hs, rfl, rfl, fun _ _ hj _ => hj, nofun, rfl⟩
    | some k =>
      refine Prog.wp_mono (close_wp (h.weaken fun _ => List.mem_cons_of_mem k))
        (fun _ db' ⟨h', hgone⟩ => ?_) fun _ => id
      refine ⟨h', List.eq_nil_iff_forall_not_mem.mpr fun j hj => ?_, hgone.begin_, hgone.commit, hgone.before, ?_,
        hgone.open_⟩
      · have hold := (hgone.stmts j hj).1
        rw [hs] at hold
        cases hold
      · rintro k p ⟨⟩ hp
        exact hgone.closed p hp
  refine Prog.wp_bind.mpr (Prog.wp_mono (hclose db₁.begin_ db₁ h₁ hs₁)
    (fun _ db₂ ⟨h₂, hs₂, hb₂, hc₂, _, hbegin, ho₂⟩ => ?_) fun _ => False.elim)
  rw [Prog.wp_bind, Prog.wp_get]
  refine Prog.wp_bind.mpr (Prog.wp_mono (hclose db₂.commit db₂ h₂ hs₂)
    (fun _ db₃ ⟨h₃, hs₃, hb₃, hc₃, hbefore, hcommit, ho₃⟩ => ?_) fun _ => False.elim)
  have hopen : db₃.open_ = db.open_ := ho₃.trans (ho₂.trans ho₁)
  have hlast := _close_wp h₃ hs₃ (fun b p hb hp => ?_) (fun c p hc hp => hcommit c p (hc₃ ▸ hc) hp) c
  · unfold Closes at hlast ⊢
    rw [hopen] at hlast
    exact hlast
  · by_contra hno
    have hp₂ := hbefore b p hp (by simpa using hno)
    exact hno (hbegin b p (by rw [← hb₂, ← hb₃]; exact hb) hp₂)

/-! ## Behind the end -/

/-- A program that throws or does nothing once the connection has ended. -/
def Idle (p : Op α) : Prop := ∀ db, Ended db →
  p.wp (fun _ db' => Ended db' ∧ db'.session = db.session) (fun db' => Ended db' ∧ db'.session = db.session) db

theorem idle_pure {a : α} : Idle (pure a : Op α) := fun _ h => ⟨h, rfl⟩

theorem Idle.bind {β : Type} {p : Op α} {f : α → Op β} (hp : Idle p) (hf : ∀ a, Idle (f a)) :
    Idle (p >>= f) := fun db h =>
  Prog.wp_then (hp db h) fun a db' ⟨h', hs⟩ =>
    Prog.wp_mono (hf a db' h') (fun _ _ ⟨h'', hs'⟩ => ⟨h'', hs'.trans hs⟩) fun _ ⟨h'', hs'⟩ => ⟨h'', hs'.trans hs⟩

theorem Idle.of_get {β : Type} {f : DB → Op β} (hf : ∀ db, Ended db → (f db).wp
    (fun _ db' => Ended db' ∧ db'.session = db.session) (fun db' => Ended db' ∧ db'.session = db.session) db) :
    Idle (Prog.get >>= f) := fun db h => by
  rw [Prog.wp_bind, Prog.wp_get]
  exact hf db h

/-- Nothing is prepared, and what would come behind it does not happen. -/
theorem idle_newPtr_bind {sql : String} {f : Nat → Op α} : Idle (DB.newPtr g sql >>= f) := fun db h => by
  rw [DB.newPtr, Prog.wp_bind, Prog.wp_bind, wp_onPort, h.shut]
  exact ⟨h, rfl⟩

/-- Every pointer is closed. -/
theorem idle_safeRun {run : Nat → Op α} : Idle (DB.safeRun k run) := Idle.of_get fun db h => by
  cases hk : db.ptrs[k]? with
  | none => exact ⟨h, rfl⟩
  | some p =>
    rw [Prog.wp_bind, Prog.wp_throwIf, (h.ended h.shut).2 k p hk]
    exact ⟨h, rfl⟩

theorem idle_close : Idle (DB.close k) := fun db h => by
  refine Prog.wp_mono (close_wp (h.toInv.weaken fun _ => List.mem_cons_of_mem k)) (fun _ db' ⟨h', hgone⟩ => ?_)
    fun _ => False.elim
  refine ⟨⟨h', hgone.open_.trans h.shut, List.eq_nil_iff_forall_not_mem.mpr fun j hj => ?_⟩, hgone.session h.shut⟩
  have hold := (hgone.stmts j hj).1
  rw [h.stmts_nil] at hold
  cases hold

theorem idle_closeSome (old : Option Nat) : Idle (DB.closeSome old) := by
  cases old with
  | none => exact idle_pure
  | some k => exact idle_close

theorem idle_ensureAutoCommit (autoCommit : Bool) : Idle (DB.ensureAutoCommit g autoCommit) := by
  cases autoCommit with
  | false => exact idle_pure
  | true =>
    have hbegin : Idle (DB.ensureBegin g) := Idle.of_get fun db h => by
      cases db.begin_ with
      | some k => exact idle_pure db h
      | none => exact idle_newPtr_bind db h
    have hcommit : Idle (DB.ensureCommit g) := Idle.of_get fun db h => by
      cases db.commit with
      | some k => exact idle_pure db h
      | none => exact idle_newPtr_bind db h
    refine hbegin.bind fun _ => hcommit.bind fun _ => Idle.of_get fun db₁ h₁ => ?_
    rw [Prog.wp_bind, Prog.wp_get]
    split
    · exact idle_safeRun db₁ h₁
    · exact ⟨h₁, rfl⟩

theorem idle_prepare (old : Option Nat) (sql : String) : Idle (DB.prepare g old sql) :=
  (idle_closeSome old).bind fun _ => idle_newPtr_bind

theorem idle_closeAll : ∀ {ks : List Nat}, Idle (DB.closeAll ks)
  | [] => idle_pure
  | _ :: _ => idle_close.bind fun _ => idle_closeAll

theorem idle_closeDB (c : PortClose) : Idle (DB.closeDB c) := by
  refine Idle.of_get fun db h => ?_
  refine (idle_closeAll.bind fun _ => Idle.of_get fun db₁ h₁ => ?_) db h
  refine ((idle_closeSome db₁.begin_).bind fun _ => Idle.of_get fun db₂ h₂ => ?_) db₁ h₁
  refine ((idle_closeSome db₂.commit).bind fun _ => Idle.of_get fun db₃ h₃ => ?_) db₂ h₂
  rw [h₃.shut]
  exact ⟨h₃, rfl⟩

theorem idle_program (l : Label) : Idle (program g l) := by
  cases l with
  | prepare old sql => exact idle_prepare old sql
  | on k a =>
    show Idle (DB.safeRun k fun ptr => DB.onPort (a.exec g ptr))
    exact idle_safeRun
  | exec sql autoCommit => exact idle_newPtr_bind
  | ensureAutoCommit autoCommit => exact idle_ensureAutoCommit autoCommit
  | close k => exact idle_close
  | closeDB c => exact idle_closeDB c

end

/-! ## Runs -/

theorem program_inv {g : Statements.Guest} {db db' : DB} {l : Label} (h : Inv [] db) (hs : step g db l = some db') :
    Inv [] db' := by
  cases hs
  cases l with
  | prepare old sql => exact (prepare_keeps old sql).state h
  | on k a => exact (safeRun_stays (confined_access a)).state h
  | exec sql autoCommit => exact (exec_keeps sql autoCommit).state h
  | ensureAutoCommit autoCommit => exact (ensureAutoCommit_keeps autoCommit).state h
  | close k => exact closePtr_keeps.state h
  | closeDB c => exact Prog.wp_state (E := Inv []) (Prog.wp_mono (closeDB_wp h c)
    (fun _ _ h' => h'.1.toInv) fun _ h' => h'.1.toInv)

theorem opened_inv (g : Statements.Guest) : Inv [] (opened g) :=
  ⟨PortHandles.opened_owned, nofun, nofun, nofun, nofun, nofun, rfl, nofun⟩

/-- Between the calls: the guest was called with statements that were there; a new pointer was never equal to
one of the set; an open pointer has a registered statement that no other open one has, and the connection
closes it at its end; no pointer's `close` failed. Behind the end no statement is left, if the session was closed. -/
structure Faithful (db : DB) : Prop where
  sound : Sound db.session.log
  notAdded : db.alreadyAdded = false
  registered : ∀ (k : Nat) p, db.ptrs[k]? = some p → p.closed = false → p.ptr ∈ db.session.user
  distinct : ∀ (j k : Nat) p q, db.ptrs[j]? = some p → db.ptrs[k]? = some q → p.closed = false → q.closed = false →
    p.ptr = q.ptr → j = k
  known : ∀ (k : Nat) p, db.ptrs[k]? = some p → p.closed = false →
    k ∈ db.stmts ∨ db.begin_ = some k ∨ db.commit = some k
  stmts : ∀ k ∈ db.stmts, ∃ p, db.ptrs[k]? = some p ∧ p.closed = false
  clean : ∀ (k : Nat) p, db.ptrs[k]? = some p → p.closeException = false
  ended : db.open_ = false →
    (db.unstopped = false → live db.session.log = []) ∧ ∀ (k : Nat) p, db.ptrs[k]? = some p → p.closed = true

theorem Inv.faithful {db : DB} (h : Inv [] db) : Faithful db :=
  { h with
    sound := h.owned.sound
    notAdded := h.added
    known := fun k p hk hp => by simpa using h.known k p hk hp }

/-- Whatever the guest answers, and whatever throws on the way. -/
theorem jdbc_run_faithful (g : Statements.Guest) (labels : List Label) :
    EveryState (step g) Faithful (opened g) labels :=
  everyState_of_invariant (fun _ _ _ h _ hs => program_inv h hs) (fun _ => Inv.faithful) (opened_inv g) everyStep_true

/-- `close` ends the connection, and throws only what the port's does; behind it nothing reaches the guest. -/
structure Ends (g : Statements.Guest) (db : DB) (l : Label) : Prop where
  closeDB : ∀ c, l = .closeDB c → Closes db c (program g l db).1 (program g l db).2
  behind : Ended db → Ended (program g l db).2 ∧ (program g l db).2.session = db.session

theorem Inv.ends {g : Statements.Guest} {db : DB} (h : Inv [] db) (l : Label) : Ends g db l := by
  refine ⟨fun c hl => ?_, fun hend => Prog.wp_state (idle_program (g := g) l db hend)⟩
  subst hl
  exact Prog.wp_run (R := Closes db c) (closeDB_wp h c)

theorem jdbc_run_ends (g : Statements.Guest) (labels : List Label) :
    EveryStep (step g) (Ends g) (opened g) labels :=
  everyStep_of_invariant (I := Inv []) (fun _ _ _ h _ hs => program_inv h hs) (fun _ l h _ => h.ends l) (opened_inv g)
    everyStep_true

end JdbcStatements

end Sqlol

/-
`JvmCallbacks` and its users: the callbacks that `WorkerDB` connections of one
runtime register, and the keys that SQLite passes back as `user_data`.

A key is released in one of two ways. For functions and collations SQLite calls
the destructor, which frees the key; for the hooks the connection frees the key
it has put another one in place of. Both go through `free`, which takes a key out
of all seven maps at once, so that agreement rests on keys never being issued
twice while one of them is in use.

A step is what one connection does up to its next call into the registry or into
SQLite; steps of different connections interleave. The callbacks themselves are
left out, a map here is the set of its keys. Of SQLite it is taken that setting a
hook takes effect, that a function or a collation is replaced, removed or refused
as a whole, and that its destructor runs when the last entry with its key goes. A
refused one may be destroyed or not: the caller frees the key in any case.
-/
import Sqlol.Runs
import Mathlib.Algebra.Group.Nat.Defs
import Mathlib.Data.List.Basic
import Mathlib.Logic.Function.Basic

namespace Sqlol

namespace CallbackRegistry

/-- The hooks of a connection, each with one key. -/
inductive Hook where
  | busy
  | progress
  | commit
  | rollback
  | update
  deriving DecidableEq

/-- The maps of `JvmCallbacks`. -/
inductive Kind where
  | udf
  | collation
  | hook (h : Hook)
  deriving DecidableEq

/-- SQLite's encodings of a function. -/
inductive Enc where
  | utf8
  | utf16le
  | utf16be
  deriving DecidableEq

/-- Where SQLite keeps a function or a collation. -/
inductive Slot where
  | function (name : String) (nArg : Int) (enc : Enc)
  | collation (name : String)
  deriving DecidableEq

/-- The map its key is in. -/
def Slot.kind : Slot → Kind
  | .function .. => .udf
  | .collation _ => .collation

/-- What `create_function` or `create_collation` asks for. -/
inductive Creation where
  | function (name : String) (nArgs : Int) (flags : Nat)
  | collation (name : String)
  deriving DecidableEq

/-- The encodings of `UTF8 | flags`; with `SQLITE_ANY` it is all three. -/
def encodings (flags : Nat) : List Enc :=
  match (1 ||| flags) % 8 with
  | 5 => [.utf8, .utf16le, .utf16be]
  | 3 => [.utf16be]
  | _ => [.utf8]

namespace Creation

/-- The map its key is in. -/
def kind : Creation → Kind
  | .function .. => .udf
  | .collation _ => .collation

/-- SQLite looks names up without regard to case. -/
def slots : Creation → List Slot
  | .function name nArgs flags => (encodings flags).map (.function name.toLower nArgs)
  | .collation name => [.collation name.toLower]

end Creation

/-- What a connection is in the middle of. -/
inductive Op where
  | unopened
  | idle
  /-- `set_commit_listener` between its two `register`. -/
  | registerRollback
  /-- The hooks still to set, whether SQLite takes the key (a progress handler needs a positive `vmCalls`),
  and the keys to free behind that. -/
  | hooking (hooks : List Hook) (armed : Bool) (old : List (Hook × Nat))
  /-- The keys still to free; `closing` in the `finally` of `_close`. -/
  | freeing (old : List (Hook × Nat)) (closing : Bool)
  | creating (what : Creation) (key : Nat)
  /-- SQLite has refused it, and `free(key)` is next. -/
  | refused (what : Creation) (key : Nat)
  | destroying (slot : Slot)
  /-- `p.close()` in `_close`. -/
  | closing (old : List (Hook × Nat))
  | ended
  deriving DecidableEq

/-- A `WorkerDB` and what SQLite has of it. `collationKeys` and the keys in `functionKeys` are never read. -/
structure WorkerDb where
  /-- `busyKey`, `progressKey`, `commitKey`, `rollbackKey` and `updateKey`; 0 is none. -/
  key : Hook → Nat := fun _ => 0
  /-- The number of arguments in `functionKeys`. -/
  functionKeys : String → Option Int := fun _ => none
  commitListeners : List Nat := []
  updateListeners : List Nat := []
  op : Op := .unopened
  /-- The `user_data` of the hooks that are set in SQLite. -/
  hook : Hook → Option Nat := fun _ => none
  /-- The `user_data` of its functions and collations. -/
  entries : List (Slot × Nat) := []

/-- What a step does to the registry. -/
inductive Effect where
  | register (kind : Kind)
  | free (keys : List Nat)
  deriving DecidableEq

/-- A call of one connection, its next step, or an answer of SQLite's. -/
inductive Call where
  /-- `_open` returns. -/
  | opened
  /-- `handler` is false for null. -/
  | busyHandler (handler : Bool)
  | busyTimeout
  | registerProgressHandler (vmCalls : Int)
  /-- Also `register_progress_handler` with null. -/
  | clearProgressHandler
  | addCommitListener (listener : Nat)
  | removeCommitListener (listener : Nat)
  | addUpdateListener (listener : Nat)
  | removeUpdateListener (listener : Nat)
  | create (what : Creation)
  | destroyFunction (name : String)
  | destroyCollation (name : String)
  | close
  /-- The next step of the operation that is under way. -/
  | proceed
  /-- SQLite answers a creation or a removal; `destroyed` when a refused creation runs the destructor. -/
  | answer (ok destroyed : Bool)
  /-- `sqlite3_close` drops an entry. -/
  | drop (slot : Slot)
  /-- `p.close()` returns. -/
  | closed

/-- The keys whose last entry has gone, which is when SQLite calls the destructor. -/
def gone (before after : List (Slot × Nat)) : List Nat :=
  (before.map (·.2)).filter fun k => k ∉ after.map (·.2)

namespace WorkerDb

/-- The key of a hook's field. -/
def setKey (d : WorkerDb) (h : Hook) (key : Nat) : WorkerDb := { d with key := Function.update d.key h key }

/-- A hook's key is replaced: SQLite is told next, and then the old key is freed. -/
def replace (d : WorkerDb) (h : Hook) (key : Nat) (armed : Bool) : WorkerDb :=
  { d.setKey h key with op := .hooking [h] armed [(h, d.key h)] }

/-- Setting the hook `h` in SQLite to its field; key 0 clears it. -/
def arm (d : WorkerDb) (h : Hook) (armed : Bool) : WorkerDb :=
  { d with hook := Function.update d.hook h (if armed ∧ d.key h ≠ 0 then some (d.key h) else none) }

/-- SQLite's functions and collations are others, and the destructor runs for those that have gone. -/
def setEntries (d : WorkerDb) (entries : List (Slot × Nat)) (op : Op) : WorkerDb × Effect :=
  ({ d with entries, op }, .free (gone d.entries entries))

/-- The functions and collations but those in some slots. -/
def without (d : WorkerDb) (slots : List Slot) : List (Slot × Nat) := d.entries.filter fun e => e.1 ∉ slots

/-- `set_commit_listener`, as far as its first call. -/
def setCommitListener (d : WorkerDb) (key : Nat) : Bool → WorkerDb × Effect
  | true => ({ d.setKey .commit key with op := .registerRollback }, .register (.hook .commit))
  | false =>
    ({ (d.setKey .commit 0).setKey .rollback 0 with
      op := .hooking [.commit, .rollback] true [(.commit, d.key .commit), (.rollback, d.key .rollback)] }, .free [])

/-- `set_update_listener`, as far as its first call. -/
def setUpdateListener (d : WorkerDb) (key : Nat) : Bool → WorkerDb × Effect
  | true => ({ d.setKey .update key with op := .hooking [.update] true [] }, .register (.hook .update))
  | false => (d.replace .update 0 true, .free [])

/-- The hook is set with the first listener, and cleared with the last. -/
def addCommitListener (d : WorkerDb) (key listener : Nat) : WorkerDb × Effect :=
  if listener ∈ d.commitListeners then (d, .free [])
  else
    let d := { d with commitListeners := listener :: d.commitListeners }
    if d.commitListeners.length = 1 then d.setCommitListener key true else (d, .free [])

/-- The last one clears the hook. -/
def removeCommitListener (d : WorkerDb) (key listener : Nat) : WorkerDb × Effect :=
  if listener ∈ d.commitListeners then
    let d := { d with commitListeners := d.commitListeners.erase listener }
    if d.commitListeners = [] then d.setCommitListener key false else (d, .free [])
  else (d, .free [])

/-- The first one sets the hook. -/
def addUpdateListener (d : WorkerDb) (key listener : Nat) : WorkerDb × Effect :=
  if listener ∈ d.updateListeners then (d, .free [])
  else
    let d := { d with updateListeners := listener :: d.updateListeners }
    if d.updateListeners.length = 1 then d.setUpdateListener key true else (d, .free [])

/-- The last one clears the hook. -/
def removeUpdateListener (d : WorkerDb) (key listener : Nat) : WorkerDb × Effect :=
  if listener ∈ d.updateListeners then
    let d := { d with updateListeners := d.updateListeners.erase listener }
    if d.updateListeners = [] then d.setUpdateListener key false else (d, .free [])
  else (d, .free [])

/-- `_close`, as far as `p.close()`. -/
def close (d : WorkerDb) : WorkerDb :=
  { d with
    key := fun _ => 0
    commitListeners := []
    updateListeners := []
    op := .closing ([.busy, .progress, .commit, .rollback, .update].map fun h => (h, d.key h)) }

/-- The next step of the operation under way; the key is the one that a registration would get. -/
def proceed (d : WorkerDb) (key : Nat) : Option (WorkerDb × Effect) :=
  match d.op with
  | .registerRollback =>
    some ({ d.setKey .rollback key with op := .hooking [.commit, .rollback] true [] }, .register (.hook .rollback))
  | .hooking (h :: hooks) armed old => some ({ d.arm h armed with op := .hooking hooks armed old }, .free [])
  | .hooking [] _ old => some ({ d with op := .freeing old false }, .free [])
  | .freeing ((_, k) :: old) closing =>
    some ({ d with op := .freeing old closing }, .free (if k = 0 then [] else [k]))
  | .freeing [] closing => some ({ d with op := if closing then .ended else .idle }, .free [])
  | .refused _ k => some ({ d with op := .idle }, .free [k])
  | _ => none

/-- What is refused is refused as a whole. A creation under `SQLITE_ANY` that fails half-way, with one
encoding made, is outside what is taken of SQLite. -/
def answer (d : WorkerDb) (ok destroyed : Bool) : Option (WorkerDb × Effect) :=
  match d.op with
  | .creating what k =>
    if ok then
      let d' := match what with
        | .function name nArgs _ => { d with functionKeys := Function.update d.functionKeys name (some nArgs) }
        | .collation _ => d
      some (d'.setEntries (what.slots.map (·, k) ++ d.without what.slots) .idle)
    else some ({ d with op := .refused what k }, .free (if destroyed then [k] else []))
  | .destroying slot =>
    if ok then some (d.setEntries (d.without [slot]) .idle) else some ({ d with op := .idle }, .free [])
  | _ => none

/-- The operations, as far as their first call into the registry or into SQLite. -/
def request (d : WorkerDb) (key : Nat) : Call → Option (WorkerDb × Effect)
  | .busyHandler true => some (d.replace .busy key true, .register (.hook .busy))
  | .busyHandler false => some (d.replace .busy 0 true, .free [])
  | .registerProgressHandler vmCalls => some (d.replace .progress key (0 < vmCalls), .register (.hook .progress))
  | .clearProgressHandler => some (d.replace .progress 0 false, .free [])
  | .addCommitListener listener => some (d.addCommitListener key listener)
  | .removeCommitListener listener => some (d.removeCommitListener key listener)
  | .addUpdateListener listener => some (d.addUpdateListener key listener)
  | .removeUpdateListener listener => some (d.removeUpdateListener key listener)
  | .create what => some ({ d with op := .creating what key }, .register what.kind)
  | .destroyFunction name =>
    -- A name that `functionKeys` does not have is removed as a function of no arguments.
    some ({ d with
      functionKeys := Function.update d.functionKeys name none
      op := .destroying (.function name.toLower ((d.functionKeys name).getD 0) .utf8) }, .free [])
  | .destroyCollation name => some ({ d with op := .destroying (.collation name.toLower) }, .free [])
  | .close => some (d.close, .free [])
  | _ => none

/-- One step of a connection, where `key` is what `nextKey` holds. -/
def step (d : WorkerDb) (key : Nat) : Call → Option (WorkerDb × Effect)
  | .opened => if d.op = .unopened then some ({ d with op := .idle }, .free []) else none
  -- Not synchronized, so it may come between the steps of another operation.
  | .busyTimeout => match d.op with
    | .unopened | .freeing _ true | .ended => none
    | _ => some ({ d with hook := Function.update d.hook .busy none }, .free [])
  | .proceed => d.proceed key
  | .answer ok destroyed => d.answer ok destroyed
  | .drop slot => match d.op with
    | .closing old => some (d.setEntries (d.without [slot]) (.closing old))
    | _ => none
  | .closed => match d.op with
    | .closing old =>
      if d.entries = [] then some ({ d with hook := fun _ => none, op := .freeing old true }, .free []) else none
    | _ => none
  | call => if d.op = .idle then d.request key call else none

end WorkerDb

/-- The registry of a runtime and the connections on it. `issued` is a note that no step reads: the
connection a key was last issued to, and the map it was put into. -/
structure Sys where
  nextKey : Nat := 1
  callbacks : Kind → Nat → Bool := fun _ _ => false
  issued : Nat → Option (Nat × Kind) := fun _ => none
  db : Nat → WorkerDb := fun _ => {}

namespace Sys

/-- A key for the operation of a connection that asked for it. -/
def register (s : Sys) (c : Nat) (kind : Kind) : Sys :=
  { s with
    nextKey := (s.nextKey + 1) % 2 ^ 32
    callbacks := fun kd k => if kd = kind ∧ k = s.nextKey then true else s.callbacks kd k
    issued := Function.update s.issued s.nextKey (some (c, kind)) }

/-- The key is taken out of all maps. -/
def free (s : Sys) (key : Nat) : Sys :=
  { s with callbacks := fun kd k => if k = key then false else s.callbacks kd k }

/-- What a step does to the registry. -/
def perform (s : Sys) (c : Nat) : Effect → Sys
  | .register kind => s.register c kind
  | .free keys => keys.foldl free s

end Sys

/-- A call of connection `l.1`. -/
def step (s : Sys) (l : Nat × Call) : Option Sys :=
  ((s.db l.1).step s.nextKey l.2).map fun r => { s.perform l.1 r.2 with db := Function.update s.db l.1 r.1 }

/-! ## What is claimed -/

/-- Every key that SQLite may pass is registered under the kind it is passed for, and an ended
connection has none left. -/
structure Agrees (s : Sys) : Prop where
  hooks : ∀ c h k, (s.db c).hook h = some k → s.callbacks (.hook h) k = true
  entries : ∀ c slot k, (slot, k) ∈ (s.db c).entries → s.callbacks slot.kind k = true
  ended : ∀ c k issuedFor, (s.db c).op = .ended → s.issued k = some (c, issuedFor) → ∀ kind, s.callbacks kind k = false

/-- A step of a connection frees no key but its own. -/
def FreesOwn (s : Sys) (l : Nat × Call) : Prop :=
  ∀ s' kind k, step s l = some s' → s.callbacks kind k = true → s'.callbacks kind k = false →
    ∃ issuedFor, s.issued k = some (l.1, issuedFor)

end CallbackRegistry

end Sqlol

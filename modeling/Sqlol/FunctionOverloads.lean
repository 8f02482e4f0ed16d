/-
The overloads of a user function: `WorkerDB.create_function` and
`destroy_function` in any order.

SQLite keeps a function for each name, number of arguments and encoding.
`functionKeys` has one number of arguments for each name, that of the last
`create_function`, and `destroy_function` removes the function of this number and
of UTF-8 only; of a name it does not have it removes that of no arguments. So the
name is gone behind it exactly when all that was created under it and is still
there lies in that one slot (`destroy_function_forgets`).

Other connections of the runtime, and the hooks, draw keys from the same counter,
so a call is given its key.
-/
import Mathlib.Data.List.Basic
import Mathlib.Logic.Function.Basic
import Sqlol.CallbackRegistry

namespace Sqlol

namespace FunctionOverloads

open CallbackRegistry (Slot Enc encodings)

/-- A `UdfAdapter` and the key it was registered under. -/
structure Overload where
  adapter : Nat
  key : Nat
  deriving DecidableEq

/-- A connection with its functions: the registry, what the connection remembers, and what SQLite has. -/
structure Db where
  /-- The map of `JvmCallbacks`. -/
  udfs : Nat → Option Nat := fun _ => none
  /-- The number of arguments in `functionKeys`; its key is never read. -/
  functionKeys : String → Option Int := fun _ => none
  /-- The functions that SQLite has. -/
  functions : List (Slot × Overload) := []
  /-- The adapter that is made next. -/
  next : Nat := 0
  /-- The name under which `create_function` has registered an adapter. -/
  name : Nat → Option String := fun _ => none

/-- How SQLite answers a creation. -/
inductive Answer where
  | ok
  /-- Whether it has run the destructor. -/
  | refused (destroyed : Bool)
  /-- `call` throws. -/
  | threw
  deriving DecidableEq

/-- A call, with its answer. -/
inductive Op where
  | create (name : String) (nArgs : Int) (flags : Nat) (key : Nat) (answer : Answer)
  /-- `ok` when it returns `SQLITE_OK`. -/
  | destroy (name : String) (ok : Bool)
  deriving DecidableEq

/-- What has no function any more: SQLite calls the destructor with its key. -/
def gone (before after : List (Slot × Overload)) : List Overload :=
  (before.map (·.2)).filter fun o => o ∉ after.map (·.2)

namespace Db

/-- `JvmCallbacks.register`. -/
def register (s : Db) (key : Nat) : Db :=
  { s with udfs := Function.update s.udfs key (some s.next), next := s.next + 1 }

/-- `JvmCallbacks.free`. -/
def free (s : Db) (key : Nat) : Db := { s with udfs := Function.update s.udfs key none }

/-- SQLite's functions are others, and the destructor runs for those that have gone. -/
def setFunctions (s : Db) (functions : List (Slot × Overload)) : Db :=
  { s with
    functions
    udfs := fun k => if k ∈ (gone s.functions functions).map (·.key) then none else s.udfs k }

/-- SQLite's functions but those in some slots. -/
def without (s : Db) (slots : List Slot) : List (Slot × Overload) := s.functions.filter fun e => e.1 ∉ slots

/-- The slots of `UTF8 | flags`; SQLite does not regard the case of a name. -/
def slots (name : String) (nArgs : Int) (flags : Nat) : List Slot :=
  (encodings flags).map (.function name.toLower nArgs)

/-- A refused creation leaves SQLite's functions alone. One under `SQLITE_ANY` that fails half-way, with one
encoding made, is outside what is taken of SQLite. -/
def createFunction (s : Db) (name : String) (nArgs : Int) (flags key : Nat) : Answer → Db
  | .ok =>
    let r := s.register key
    { r.setFunctions ((slots name nArgs flags).map (·, ⟨s.next, key⟩) ++ r.without (slots name nArgs flags)) with
      functionKeys := Function.update s.functionKeys name (some nArgs)
      name := Function.update s.name s.next (some name) }
  | .refused destroyed => (if destroyed then (s.register key).free key else s.register key).free key
  | .threw => s.register key

/-- The slot that `destroy_function` removes. -/
def destroyed (s : Db) (name : String) : Slot := .function name.toLower ((s.functionKeys name).getD 0) .utf8

/-- The name is forgotten, whether SQLite removes its function or not. -/
def destroyFunction (s : Db) (name : String) (ok : Bool) : Db :=
  let r := { s with functionKeys := Function.update s.functionKeys name none }
  if ok then r.setFunctions (s.without [s.destroyed name]) else r

/-- A call's effect. -/
def step (s : Db) : Op → Db
  | .create name nArgs flags key answer => s.createFunction name nArgs flags key answer
  | .destroy name ok => s.destroyFunction name ok

/-- A run of calls on a new connection. -/
def after (ops : List Op) : Db := ops.foldl step {}

/-! ## What is claimed -/

/-- SQLite has a function whose key leads to this adapter. -/
def Callable (s : Db) (adapter : Nat) : Prop := ∃ e ∈ s.functions, s.udfs e.2.key = some adapter

/-- Some key leads to the adapter. -/
def Registered (s : Db) (adapter : Nat) : Prop := ∃ key, s.udfs key = some adapter

/-- Nothing that was created under the name can be called or is registered. -/
def Forgotten (s : Db) (name : String) : Prop :=
  ∀ adapter, s.name adapter = some name → ¬ s.Callable adapter ∧ ¬ s.Registered adapter

/-- What was created under the name and is still there lies in the one slot that is removed. -/
def Single (s : Db) (name : String) : Prop :=
  ∀ e ∈ s.functions, s.name e.2.adapter = some name → s.udfs e.2.key = some e.2.adapter → e.1 = s.destroyed name

/-- No key was issued twice among the functions that SQLite has: this takes 2^32 registrations. -/
def KeysDistinct (s : Db) : Prop :=
  ∀ e ∈ s.functions, ∀ e' ∈ s.functions, e.2.key = e'.2.key → e.2.adapter = e'.2.adapter

/-! ## What is registered has a function -/

/-- What is registered under a name has a function that leads to it. -/
structure Inv (s : Db) : Prop where
  has : ∀ key adapter, s.udfs key = some adapter → s.name adapter ≠ none →
    ∃ slot, (slot, ⟨adapter, key⟩) ∈ s.functions
  old : ∀ key adapter, s.udfs key = some adapter → adapter < s.next
  named : ∀ adapter, s.name adapter ≠ none → adapter < s.next

variable {s : Db}

theorem mem_gone {before after : List (Slot × Overload)} {o : Overload} :
    o ∈ gone before after ↔ o ∈ before.map (·.2) ∧ o ∉ after.map (·.2) := by
  simp only [gone, List.mem_filter, decide_eq_true_eq]

theorem udfs_setFunctions {functions : List (Slot × Overload)} {key adapter : Nat}
    (h : (s.setFunctions functions).udfs key = some adapter) :
    s.udfs key = some adapter ∧ key ∉ (gone s.functions functions).map (·.key) := by
  simp only [setFunctions] at h
  split at h
  · cases h
  · next hkey => exact ⟨h, hkey⟩

/-- What is still registered has one of its functions left. -/
theorem has_setFunctions {functions : List (Slot × Overload)} {key adapter : Nat}
    (h : (s.setFunctions functions).udfs key = some adapter) (hs : ∃ slot, (slot, ⟨adapter, key⟩) ∈ s.functions) :
    ∃ slot, (slot, (⟨adapter, key⟩ : Overload)) ∈ functions := by
  obtain ⟨slot, hslot⟩ := hs
  obtain ⟨-, hkey⟩ := udfs_setFunctions h
  by_contra hnone
  refine hkey (List.mem_map.mpr ⟨⟨adapter, key⟩, mem_gone.mpr ⟨List.mem_map.mpr ⟨_, hslot, rfl⟩, ?_⟩, rfl⟩)
  intro hmem
  obtain ⟨e, he, heq⟩ := List.mem_map.mp hmem
  exact hnone ⟨e.1, heq ▸ he⟩

theorem register_udfs_self (key : Nat) : (s.register key).udfs key = some s.next := Function.update_self ..

theorem register_udfs_ne {key k : Nat} (h : k ≠ key) : (s.register key).udfs k = s.udfs k := Function.update_of_ne h ..

theorem free_udfs_self (key : Nat) : (s.free key).udfs key = none := Function.update_self ..

theorem free_udfs_ne {key k : Nat} (h : k ≠ key) : (s.free key).udfs k = s.udfs k := Function.update_of_ne h ..

theorem create_name_ne {name : String} {nArgs : Int} {flags key adapter : Nat} (h : adapter ≠ s.next) :
    (s.createFunction name nArgs flags key .ok).name adapter = s.name adapter := Function.update_of_ne h ..

/-- An adapter that has no name yet is under no obligation. -/
theorem register_inv {key : Nat} (h : Inv s) : Inv (s.register key) := by
  have hnew : s.name s.next = none := by
    by_contra hne
    exact Nat.lt_irrefl _ (h.named _ hne)
  refine ⟨fun k adapter hk hname => ?_, fun k adapter hk => ?_, fun adapter hname => ?_⟩
  · by_cases hkey : k = key
    · rw [hkey, register_udfs_self] at hk
      cases hk
      exact absurd hnew hname
    · rw [register_udfs_ne hkey] at hk
      exact h.has k adapter hk hname
  · by_cases hkey : k = key
    · rw [hkey, register_udfs_self] at hk
      cases hk
      exact Nat.lt_succ_self _
    · rw [register_udfs_ne hkey] at hk
      exact Nat.lt_succ_of_lt (h.old k adapter hk)
  · exact Nat.lt_succ_of_lt (h.named adapter hname)

theorem free_inv {key : Nat} (h : Inv s) : Inv (s.free key) := by
  have hfree : ∀ k adapter, (s.free key).udfs k = some adapter → s.udfs k = some adapter := by
    intro k adapter hk
    by_cases hkey : k = key
    · rw [hkey, free_udfs_self] at hk
      cases hk
    · rwa [free_udfs_ne hkey] at hk
  exact ⟨fun k adapter hk => h.has k adapter (hfree k adapter hk), fun k adapter hk => h.old k
    adapter (hfree k adapter hk),
    h.named⟩

theorem slots_ne_nil (name : String) (nArgs : Int) (flags : Nat) : ∃ slot, slot ∈ slots name nArgs flags := by
  unfold slots encodings
  split
  · exact ⟨_, List.mem_cons_self⟩
  · exact ⟨_, List.mem_cons_self⟩
  · exact ⟨_, List.mem_cons_self⟩

theorem create_inv (name : String) (nArgs : Int) (flags key : Nat) (answer : Answer) (h : Inv s) :
    Inv (s.createFunction name nArgs flags key answer) := by
  have hreg : Inv (s.register key) := register_inv h
  cases answer with
  | refused destroyed =>
    unfold createFunction
    cases destroyed with
    | true => exact free_inv (free_inv hreg)
    | false => exact free_inv hreg
  | threw => exact hreg
  | ok =>
    refine ⟨fun k adapter hk hname => ?_, fun k adapter hk => ?_, fun adapter hname => ?_⟩
    · obtain ⟨hold, -⟩ := udfs_setFunctions hk
      by_cases hadapter : adapter = s.next
      · -- The new one is under its own key only.
        have hkey : k = key := by
          by_contra hkey
          rw [register_udfs_ne hkey] at hold
          exact Nat.lt_irrefl _ (hadapter ▸ h.old k adapter hold)
        obtain ⟨slot, hslot⟩ := slots_ne_nil name nArgs flags
        exact ⟨slot, List.mem_append_left _ (List.mem_map.mpr ⟨slot, hslot, by rw [hadapter, hkey]⟩)⟩
      · have hname' : (s.register key).name adapter ≠ none := by
          rwa [create_name_ne hadapter] at hname
        exact has_setFunctions hk (hreg.has k adapter hold hname')
    · exact hreg.old k adapter (udfs_setFunctions hk).1
    · by_cases hadapter : adapter = s.next
      · exact hadapter ▸ Nat.lt_succ_self _
      · rw [create_name_ne hadapter] at hname
        exact Nat.lt_succ_of_lt (h.named adapter hname)

theorem destroy_inv (name : String) (ok : Bool) (h : Inv s) : Inv (s.destroyFunction name ok) := by
  cases ok with
  | false => exact ⟨h.has, h.old, h.named⟩
  | true =>
    exact ⟨fun k adapter hk hname => has_setFunctions hk (h.has k adapter (udfs_setFunctions hk).1 hname),
      fun k adapter hk => h.old k adapter (udfs_setFunctions hk).1, h.named⟩

theorem step_inv (op : Op) (h : Inv s) : Inv (s.step op) := by
  cases op with
  | create name nArgs flags key answer => exact create_inv name nArgs flags key answer h
  | destroy name ok => exact destroy_inv name ok h

theorem after_inv (ops : List Op) : Inv (after ops) := by
  have hrun : ∀ (ops : List Op) (s : Db), Inv s → Inv (ops.foldl step s) := by
    intro ops
    induction ops with
    | nil => exact fun _ h => h
    | cons op ops ih => exact fun s h => ih _ (step_inv op h)
  refine hrun ops {} ⟨fun k adapter h => ?_, fun k adapter h => ?_, fun adapter h => absurd rfl h⟩
  · cases h
  · cases h

/-! ## What `destroy_function` leaves -/

theorem forgotten_of_single {name : String} (h : Inv s) (hsingle : Single s name) :
    Forgotten (s.destroyFunction name true) name := by
  intro adapter hname
  have hnot : ¬ (s.destroyFunction name true).Registered adapter := by
    intro ⟨key, hkey⟩
    have hkey' : (setFunctions { s with functionKeys := Function.update s.functionKeys name none }
      (s.without [s.destroyed name])).udfs key = some adapter := hkey
    have hnamed : s.name adapter ≠ none := fun hnone => by cases hname.symm.trans hnone
    obtain ⟨slot, hslot⟩ := has_setFunctions hkey' (h.has key adapter (udfs_setFunctions hkey').1 hnamed)
    obtain ⟨hmem, hne⟩ := List.mem_filter.mp hslot
    simp only [List.mem_singleton, decide_eq_true_eq] at hne
    exact hne (hsingle _ hmem hname (udfs_setFunctions hkey').1)
  exact ⟨fun ⟨e, _, hcall⟩ => hnot ⟨e.2.key, hcall⟩, hnot⟩

/-- A function in another slot keeps its adapter, unless its key belongs to the one removed as well. -/
theorem single_of_forgotten {name : String} (hkeys : KeysDistinct s)
    (h : Forgotten (s.destroyFunction name true) name) : Single s name := by
  intro e he hname hcall
  by_contra hne
  have hleft : e ∈ s.without [s.destroyed name] :=
    List.mem_filter.mpr ⟨he, by simpa only [List.mem_singleton, decide_eq_true_eq] using hne⟩
  have hkept : e.2.key ∉ (gone s.functions (s.without [s.destroyed name])).map (·.key) := by
    intro hmem
    obtain ⟨o, ho, hkey⟩ := List.mem_map.mp hmem
    obtain ⟨hbefore, hafter⟩ := mem_gone.mp ho
    obtain ⟨e', he', rfl⟩ := List.mem_map.mp hbefore
    have hadapter : e'.2.adapter = e.2.adapter := hkeys e' he' e he hkey
    have hsame : e'.2 = e.2 := by
      obtain ⟨slot, adapter, key⟩ := e
      obtain ⟨slot', adapter', key'⟩ := e'
      cases hkey
      cases hadapter
      rfl
    exact hafter (hsame ▸ List.mem_map.mpr ⟨e, hleft, rfl⟩)
  have hudfs : (s.destroyFunction name true).udfs e.2.key = some e.2.adapter := (if_neg hkept).trans hcall
  exact (h e.2.adapter hname).2 ⟨e.2.key, hudfs⟩

/-- **After any calls, a `destroy_function` that returns `SQLITE_OK` leaves nothing of
its name when all that was created under the name lies in the slot of the remembered
number of arguments and of UTF-8; and only then, as long as no key was issued twice.** -/
theorem destroy_function_forgets (ops : List Op) (name : String) :
    (Single (after ops) name → Forgotten (after (ops ++ [.destroy name true])) name) ∧
    (KeysDistinct (after ops) → Forgotten (after (ops ++ [.destroy name true])) name → Single (after ops) name) := by
  have hlast : after (ops ++ [.destroy name true]) = (after ops).destroyFunction name true := by
    rw [after, List.foldl_append]
    rfl
  rw [hlast]
  exact ⟨forgotten_of_single (after_inv ops), single_of_forgotten⟩

/-- `f` with two arguments, removed; `g`; then `f` with one argument, refused first, and made twice. -/
def mixed : List Op :=
  [.create "f" 2 0 1 .ok, .destroy "f" true, .create "g" 1 0 2 .ok, .create "f" 1 0 3 (.refused true),
    .create "f" 1 0 4 .ok, .create "f" 1 0 5 .ok]

theorem destroy_function_forgets_mixed :
    Single (after mixed) "f" ∧ KeysDistinct (after mixed) ∧ Forgotten (after (mixed ++ [.destroy "f" true])) "f" := by
  have hfunctions : (after mixed).functions =
      [(.function "f".toLower 1 .utf8, ⟨4, 5⟩), (.function "g".toLower 1 .utf8, ⟨1, 2⟩)] := by decide +kernel
  have hg : (after mixed).name 1 ≠ some "f" := by decide +kernel
  have hkeys : KeysDistinct (after mixed) := by
    intro e he e' he' hkey
    rw [hfunctions] at he he'
    simp only [List.mem_cons, List.not_mem_nil, or_false] at he he'
    rcases he with rfl | rfl <;> rcases he' with rfl | rfl
    · rfl
    · cases hkey
    · cases hkey
    · rfl
  have hsingle : Single (after mixed) "f" := by
    intro e he hname _
    rw [hfunctions] at he
    simp only [List.mem_cons, List.not_mem_nil, or_false] at he
    rcases he with rfl | rfl
    · rfl
    · exact absurd hname hg
  have hforgotten := (destroy_function_forgets mixed "f").1 hsingle
  exact ⟨(destroy_function_forgets mixed "f").2 hkeys hforgotten, hkeys, hforgotten⟩

/-- `f` with one and then with two arguments: the first is still there. -/
theorem destroy_function_leaves_other :
    ¬ Forgotten (after [.create "f" 1 0 1 .ok, .create "f" 2 0 2 .ok, .destroy "f" true]) "f" := by
  intro h
  exact (h 0 (by decide +kernel)).2 ⟨1, by decide +kernel⟩

end Db

end FunctionOverloads

end Sqlol

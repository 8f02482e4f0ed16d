/-
User functions inside user functions: `WorkerDB.UdfAdapter` and the fields of a
`Function`, while the SQL that a function runs calls functions again.

SQLite gives each activation a context and an argument array of its own. The
adapter puts them into the fields of the one `Function` object and calls it;
`args()`, `value_*(i)`, `result*` and `error` read these fields, and nobody puts
back what was there when an inner activation is over. Each activation here notes
what was activated inside it on the same object. As long as that is nothing that
overwrites what a call reads, and `args()` and `value_*` are called where there
are arguments, every call acts on its own activation (`nested_calls_own`).
-/
import Sqlol.Runs

namespace Sqlol

namespace NestedUdf

/-- `Function`'s fields. -/
structure Function where
  context : Nat := 0
  value : Nat := 0
  args : Int := 0
  deriving DecidableEq

namespace Function

/-- `func.context = context`. -/
def setContext (f : Function) (context : Nat) : Function := { f with context := context }

/-- `func.value = value`. -/
def setValue (f : Function) (value : Nat) : Function := { f with value := value }

/-- `func.args = args`. -/
def setArgs (f : Function) (args : Int) : Function := { f with args := args }

/-- `value + (arg * 4)`. -/
def getValueArg (f : Function) (arg : Int) : Int := f.value + arg * 4

end Function

/-- The callbacks, those that have arguments with `argc` and `argv`. -/
inductive Callback where
  | xFunc (argc : Int) (argv : Nat)
  | xStep (argc : Int) (argv : Nat)
  | xInverse (argc : Int) (argv : Nat)
  | xFinal
  | xValue
  deriving DecidableEq

/-- The arguments that a callback comes with. -/
def Callback.arguments : Callback → Option (Int × Nat)
  | .xFunc argc argv | .xStep argc argv | .xInverse argc argv => some (argc, argv)
  | .xFinal | .xValue => none

/-- A callback that has not returned. -/
structure Activation where
  /-- The `Function` object; one may be registered under several names. -/
  fn : Nat
  ctx : Nat
  callback : Callback
  /-- What was activated on the same object since this one began. -/
  inside : List Callback
  deriving DecidableEq

/-- The function objects with what is set on them, and the activations. -/
structure State where
  fns : Nat → Function
  /-- `WorkerDB.activeEnv`, known by its instance. -/
  activeEnv : Option Nat
  /-- The innermost first: it is the one that runs. -/
  stack : List Activation

/-- What a user function may call. -/
inductive Call where
  | args
  /-- Any of the `value_*`. -/
  | value (arg : Int)
  /-- Any of the `result`s, or `error`. -/
  | result
  deriving DecidableEq

/-- What a method of `Function` throws. -/
inductive Error where
  /-- "no context, not allowed to read value" -/
  | noContext
  /-- "not in value access state" -/
  | noValue
  /-- "arg .. out bounds [0,..)" -/
  | outOfBounds (arg args : Int)
  /-- "UDF 콜백 실행 중이 아님" -/
  | noCallback
  deriving DecidableEq

/-- What a call acts on. -/
inductive Effect where
  | throws (e : Error)
  | count (args : Int)
  /-- The cell of an argument array that is read, in an instance's memory. -/
  | reads (env : Nat) (address : Int)
  | writes (env : Nat) (ctx : Nat)
  deriving DecidableEq

/-- `Function.args`, `value_*`, `result` and `error`, over `WorkerDB`'s. The connection is open. -/
def effect (activeEnv : Option Nat) (f : Function) : Call → Effect
  | .args => if f.context = 0 then .throws .noContext else .count f.args
  | .value arg =>
    if f.value = 0 then .throws .noValue
    else if arg ≥ f.args then .throws (.outOfBounds arg f.args)
    else match activeEnv with
      | none => .throws .noCallback
      | some env => .reads env (f.getValueArg arg)
  | .result =>
    if f.context = 0 then .throws .noContext
    else match activeEnv with
      | none => .throws .noCallback
      | some env => .writes env f.context

/-- SQLite's calls and returns, and the calls of the function that runs. -/
inductive Label where
  /-- SQLite calls the adapter of an object. -/
  | enter (fn ctx : Nat) (callback : Callback)
  /-- The innermost activation returns, or throws. -/
  | leave
  | call (c : Call)
  deriving DecidableEq

/-- `UdfAdapter.invoke`, and the head of `xFinal` and `xValue`. -/
def invoke (f : Function) (ctx : Nat) (callback : Callback) : Function :=
  match callback.arguments with
  | some (argc, argv) => ((f.setContext ctx).setValue argv).setArgs argc
  | none => f.setContext ctx

/-- The activation notes a callback that runs inside it, on its own object. -/
def Activation.note (fn : Nat) (callback : Callback) (a : Activation) : Activation :=
  if a.fn = fn then { a with inside := callback :: a.inside } else a

/-- The instance is the connection's. A context is no null pointer, nor is an
array that has something in it. -/
def step (inst : Nat) (s : State) : Label → Option State
  | .enter fn ctx callback =>
    if ctx ≠ 0 ∧ ∀ p ∈ callback.arguments, 0 < p.1 → p.2 ≠ 0 then some
      { fns := fun k => if k = fn then invoke (s.fns fn) ctx callback else s.fns k
        activeEnv := some inst
        stack := ⟨fn, ctx, callback, []⟩ :: s.stack.map (Activation.note fn callback) }
    else none
  | .leave => match s.stack with
    | [] => none
    | _ :: stack => some { s with stack := stack }
  | .call _ => if s.stack = [] then none else some s

/-! ## What is claimed -/

/-- What a call of an activation is to act on: its own count, array and context. -/
def own (inst : Nat) (a : Activation) : Call → Option Effect
  | .args => a.callback.arguments.map fun p => .count p.1
  | .value arg => a.callback.arguments.map fun p =>
    if p.2 = 0 then .throws .noValue
    else if 0 ≤ arg ∧ arg < p.1 then .reads inst (p.2 + arg * 4)
    else .throws (.outOfBounds arg p.1)
  | .result => some (.writes inst a.ctx)

/-- The running activation's call acts on what is its own. -/
def Own (inst : Nat) (s : State) : Label → Prop
  | .call c => ∀ a ∈ s.stack.head?, own inst a c = some (effect s.activeEnv (s.fns a.fn) c)
  | _ => True

instance (inst : Nat) (s : State) : ∀ l, Decidable (Own inst s l)
  | .call c => inferInstanceAs
    (Decidable (∀ a ∈ s.stack.head?, own inst a c = some (effect s.activeEnv (s.fns a.fn) c)))
  | .enter _ _ _ | .leave => .isTrue trivial

/-- An activation with arguments, and none with arguments inside it. -/
def Activation.HasArguments (a : Activation) : Prop :=
  a.callback.arguments ≠ none ∧ ∀ c ∈ a.inside, c.arguments = none

instance (a : Activation) : Decidable a.HasArguments :=
  inferInstanceAs (Decidable (a.callback.arguments ≠ none ∧ ∀ c ∈ a.inside, c.arguments = none))

/-- The call does not come behind an activation of its object that overwrites what
it reads, nor asks for arguments that there are not. -/
def Unshared (s : State) : Label → Prop
  | .call .result => ∀ a ∈ s.stack.head?, a.inside = []
  | .call .args => ∀ a ∈ s.stack.head?, a.HasArguments
  | .call (.value arg) => 0 ≤ arg ∧ ∀ a ∈ s.stack.head?, a.HasArguments
  | _ => True

instance (s : State) : ∀ l, Decidable (Unshared s l)
  | .call .result => inferInstanceAs (Decidable (∀ a ∈ s.stack.head?, a.inside = []))
  | .call .args => inferInstanceAs (Decidable (∀ a ∈ s.stack.head?, a.HasArguments))
  | .call (.value arg) => inferInstanceAs (Decidable (0 ≤ arg ∧ ∀ a ∈ s.stack.head?, a.HasArguments))
  | .enter _ _ _ | .leave => .isTrue trivial

/-! ## What the fields hold -/

/-- The fields of an activation's object are its own, up to what was activated inside it. -/
structure Holds (s : State) (a : Activation) : Prop where
  context_ne : (s.fns a.fn).context ≠ 0
  context : a.inside = [] → (s.fns a.fn).context = a.ctx
  arguments : ∀ p ∈ a.callback.arguments, (∀ c ∈ a.inside, c.arguments = none) →
    (s.fns a.fn).value = p.2 ∧ (s.fns a.fn).args = p.1

/-- Every activation finds its own on its object. -/
structure Inv (inst : Nat) (s : State) : Prop where
  holds : ∀ a ∈ s.stack, Holds s a
  env : s.stack ≠ [] → s.activeEnv = some inst

variable {inst : Nat} {s s' : State}

@[simp] theorem invoke_context (f : Function) (ctx : Nat) (callback : Callback) :
    (invoke f ctx callback).context = ctx := by
  unfold invoke
  split <;> rfl

theorem invoke_arguments {f : Function} {ctx : Nat} {callback : Callback} {p : Int × Nat}
    (h : callback.arguments = some p) :
    (invoke f ctx callback).value = p.2 ∧ (invoke f ctx callback).args = p.1 := by
  unfold invoke
  rw [h]
  exact ⟨rfl, rfl⟩

theorem invoke_none {f : Function} {ctx : Nat} {callback : Callback} (h : callback.arguments = none) :
    (invoke f ctx callback).value = f.value ∧ (invoke f ctx callback).args = f.args := by
  unfold invoke
  rw [h]
  exact ⟨rfl, rfl⟩

/-- An activation of one object leaves the others' fields alone, and notes itself
in those of its own. -/
theorem enter_holds {fn ctx : Nat} {callback : Callback} {a : Activation} {stack : List Activation} (hctx : ctx ≠ 0)
    (h : Holds s a) :
    Holds ⟨fun k => if k = fn then invoke (s.fns fn) ctx callback else s.fns k, some inst, stack⟩
      (a.note fn callback) := by
  by_cases hfn : a.fn = fn
  · have hnote : a.note fn callback = { a with inside := callback :: a.inside } := if_pos hfn
    rw [hnote]
    subst hfn
    refine ⟨?_, fun hin => absurd hin (List.cons_ne_nil _ _), fun p hp hin => ?_⟩
    · simp only [if_true, invoke_context]
      exact hctx
    · -- Only an `xFinal` or an `xValue` has come in between: the arguments are as they were.
      have hnone : callback.arguments = none := hin callback List.mem_cons_self
      simp only [if_true, invoke_none hnone]
      exact h.arguments p hp fun c hc => hin c (List.mem_cons_of_mem _ hc)
  · have hnote : a.note fn callback = a := if_neg hfn
    rw [hnote]
    refine ⟨?_, fun hin => ?_, fun p hp hin => ?_⟩
    · simp only [if_neg hfn]
      exact h.context_ne
    · simp only [if_neg hfn]
      exact h.context hin
    · simp only [if_neg hfn]
      exact h.arguments p hp hin

theorem enter_self {fn ctx : Nat} {callback : Callback} {stack : List Activation} (hctx : ctx ≠ 0) :
    Holds ⟨fun k => if k = fn then invoke (s.fns fn) ctx callback else s.fns k, some inst, stack⟩
      ⟨fn, ctx, callback, []⟩ := by
  refine ⟨?_, fun _ => ?_, fun p hp _ => ?_⟩
  · simp only [if_true, invoke_context]
    exact hctx
  · simp only [if_true, invoke_context]
  · simp only [if_true]
    exact invoke_arguments hp

theorem inv_step {l : Label} (h : Inv inst s) (hs : step inst s l = some s') : Inv inst s' := by
  cases l with
  | enter fn ctx callback =>
    simp only [step] at hs
    split at hs
    · next hctx =>
      cases hs
      refine ⟨fun a ha => ?_, fun _ => rfl⟩
      rcases List.mem_cons.mp ha with rfl | ha
      · exact enter_self hctx.1
      · obtain ⟨b, hb, rfl⟩ := List.mem_map.mp ha
        exact enter_holds hctx.1 (h.holds b hb)
    · cases hs
  | leave =>
    simp only [step] at hs
    split at hs
    · cases hs
    · next a stack hstack =>
      cases hs
      refine ⟨fun b hb => ?_, fun _ => h.env (by rw [hstack]; exact List.cons_ne_nil _ _)⟩
      have hb := h.holds b (by rw [hstack]; exact List.mem_cons_of_mem _ hb)
      exact ⟨hb.context_ne, hb.context, hb.arguments⟩
  | call c =>
    simp only [step] at hs
    split at hs
    · cases hs
    · cases hs
      exact h

/-- A call that reads nothing overwritten acts on its own activation. -/
theorem own_of_unshared {l : Label} (h : Inv inst s) (hl : Unshared s l) : Own inst s l := by
  cases l with
  | enter fn ctx callback => trivial
  | leave => trivial
  | call c =>
    intro a ha
    have hmem : a ∈ s.stack := List.mem_of_mem_head? ha
    have hholds := h.holds a hmem
    have henv : s.activeEnv = some inst := h.env (List.ne_nil_of_mem hmem)
    cases c with
    | result =>
      have hctx := hholds.context (hl a ha)
      simp only [own, effect, if_neg hholds.context_ne, henv]
      rw [hctx]
    | args =>
      obtain ⟨hargs, hin⟩ := hl a ha
      obtain ⟨p, hp⟩ := Option.ne_none_iff_exists'.mp hargs
      simp only [own, effect, hp, Option.map_some, if_neg hholds.context_ne, (hholds.arguments p hp hin).2]
    | value arg =>
      obtain ⟨harg, hl⟩ := hl
      obtain ⟨hargs, hin⟩ := hl a ha
      obtain ⟨p, hp⟩ := Option.ne_none_iff_exists'.mp hargs
      obtain ⟨hvalue, hcount⟩ := hholds.arguments p hp hin
      simp only [own, effect, hp, Option.map_some, henv, Function.getValueArg, hvalue, hcount, Option.some.injEq]
      by_cases hnull : p.2 = 0
      · rw [if_pos hnull, if_pos hnull]
      · rw [if_neg hnull, if_neg hnull]
        by_cases hlt : arg < p.1
        · rw [if_pos ⟨harg, hlt⟩, if_neg (Int.not_le.mpr hlt)]
        · rw [if_neg fun h => hlt h.2, if_pos (Int.not_lt.mp hlt)]

/-- **In every run whose calls come behind no activation of their own object that
overwrites what they read, every call acts on its own activation.** -/
theorem nested_calls_own (inst : Nat) (s : State) (ls : List Label) (hs : s.stack = [])
    (hls : EveryStep (step inst) Unshared s ls) : EveryStep (step inst) (Own inst) s ls := by
  have hinv : Inv inst s := ⟨fun a ha => absurd (hs ▸ ha) List.not_mem_nil, fun h => absurd hs h⟩
  exact everyStep_of_invariant (fun _ _ _ h _ hstep => inv_step h hstep) (fun _ _ h hl => own_of_unshared h hl) hinv hls

/-- No function was called yet. -/
def start : State := { fns := fun _ => {}, activeEnv := none, stack := [] }

/-- `f(1, 2)`, inside it `g(3)`, then `f` reads its arguments and gives its result. -/
theorem nested_calls_own_two :
    EveryStep (step 7) Unshared start [.enter 0 16 (.xFunc 2 64), .enter 1 32 (.xFunc 1 96), .call .result, .leave,
      .call .args, .call (.value 1), .call .result, .leave] ∧
    EveryStep (step 7) (Own 7) start [.enter 0 16 (.xFunc 2 64), .enter 1 32 (.xFunc 1 96), .call .result, .leave,
      .call .args, .call (.value 1), .call .result, .leave] :=
  ⟨by decide, nested_calls_own 7 start _ rfl (by decide)⟩

/-- `f` inside `f`: the outer result goes to the context of the inner one, which is over. -/
theorem nested_same_lost :
    ¬ EveryStep (step 7) (Own 7) start [.enter 0 16 (.xFunc 2 64), .enter 0 32 (.xFunc 1 96), .call .result, .leave,
      .call .result] ∧
    (run (step 7) start [.enter 0 16 (.xFunc 2 64), .enter 0 32 (.xFunc 1 96), .call .result, .leave]).map
      (fun s => effect s.activeEnv (s.fns 0) .result) = some (.writes 7 32) := by
  decide

end NestedUdf

end Sqlol

/-
User-defined aggregates and windows: `WorkerDB.UdfAdapter` between SQLite's
callbacks and a registered `Function`.

SQLite keeps several aggregate contexts of one function alive at a time (two
uses in one query, nested queries) and one after another (groups, further
queries). The adapter has one object `f` for all of them: it sets the
context the result goes to, and calls `f`. `Aggregate` is `Cloneable`, but
nothing clones it. So a context reads what its own steps made of `f` exactly
when no other context has stepped, inverted or finished before it
(`isolated_iff_onlyOwn`).
-/
import Mathlib.Data.List.Count

namespace Sqlol

namespace Aggregates

/-- What a subclass of `Function.Window` (or of `Aggregate`, without
`xInverse` and `xValue`) defines: its fields as they are when it is
registered, and its callbacks. A step is given its arguments; `xValue`
reports, `xFinal` may also change the fields. -/
structure Aggregate (S V R : Type) where
  init : S
  xStep : S → List V → S
  xInverse : S → List V → S
  xValue : S → R
  xFinal : S → S × R

/-- The object: `Function`'s own fields and the subclass's. -/
structure Obj (S V : Type) where
  context : Nat
  args : List V
  state : S

/-- A callback of SQLite, for one aggregate context. -/
inductive Dispatch (V : Type) where
  | xStep (ctx : Nat) (args : List V)
  | xInverse (ctx : Nat) (args : List V)
  | xValue (ctx : Nat)
  | xFinal (ctx : Nat)

section
variable {S V R : Type} (f : Aggregate S V R)

/-- The object behind `Function.create`. -/
def registered : Obj S V := { context := 0, args := [], state := f.init }

namespace UdfAdapter

/-- One callback: the object afterwards, and the value `result` hands to a context. -/
def dispatch (o : Obj S V) : Dispatch V → Obj S V × Option (Nat × R)
  | .xStep ctx args => ({ context := ctx, args, state := f.xStep o.state args }, none)
  | .xInverse ctx args => ({ context := ctx, args, state := f.xInverse o.state args }, none)
  | .xValue ctx => ({ o with context := ctx }, some (ctx, f.xValue o.state))
  | .xFinal ctx => ({ o with context := ctx, state := (f.xFinal o.state).1 }, some (ctx, (f.xFinal o.state).2))

/-- The object after a run of callbacks. -/
def after (ds : List (Dispatch V)) : Obj S V := ds.foldl (fun o d => (dispatch f o d).1) (registered f)

end UdfAdapter

/-! ## What a context should yield -/

/-- A callback as its own context counts it. -/
def ownStep (ctx : Nat) (st : S) : Dispatch V → S
  | .xStep c args => if c = ctx then f.xStep st args else st
  | .xInverse c args => if c = ctx then f.xInverse st args else st
  | .xValue _ | .xFinal _ => st

/-- The fold of a context's own steps and inverses. -/
def ownFold (ctx : Nat) (ds : List (Dispatch V)) : S := ds.foldl (ownStep f ctx) f.init

/-- What a callback should hand out after the callbacks `before`. -/
def expected (before : List (Dispatch V)) : Dispatch V → Option (Nat × R)
  | .xValue ctx => some (ctx, f.xValue (ownFold f ctx before))
  | .xFinal ctx => some (ctx, (f.xFinal (ownFold f ctx before)).2)
  | .xStep .. | .xInverse .. => none

/-- Every value a context yields is that of its own steps and inverses. -/
def Isolated (ds : List (Dispatch V)) : Prop :=
  ∀ before d rest, ds = before ++ d :: rest →
    (UdfAdapter.dispatch f (UdfAdapter.after f before) d).2 = expected f before d

end

variable {V : Type}

/-- The context a callback yields a value for. -/
def Dispatch.yields : Dispatch V → Option Nat
  | .xValue ctx | .xFinal ctx => some ctx
  | _ => none

/-- A step or inverse of the context, or a mere `xValue`. -/
def Dispatch.Own (ctx : Nat) : Dispatch V → Bool
  | .xStep c _ | .xInverse c _ => c = ctx
  | .xValue _ => true
  | .xFinal _ => false

/-- When a context yields, `f` has been stepped, inverted and finished for no other. -/
def OnlyOwn (ds : List (Dispatch V)) : Prop :=
  ∀ before d rest ctx, ds = before ++ d :: rest → d.yields = some ctx → ∀ e ∈ before, e.Own ctx = true

/-- Callbacks of one context alone leave its own fold in the object. -/
theorem state_after_own {S R : Type} (f : Aggregate S V R) {ctx : Nat} {ds : List (Dispatch V)}
    (h : ∀ e ∈ ds, e.Own ctx = true) : (UdfAdapter.after f ds).state = ownFold f ctx ds := by
  have go : ∀ (ds : List (Dispatch V)) (o : Obj S V), (∀ e ∈ ds, e.Own ctx = true) →
      (ds.foldl (fun o d => (UdfAdapter.dispatch f o d).1) o).state = ds.foldl (ownStep f ctx) o.state := by
    intro ds
    induction ds with
    | nil => intro o _; rfl
    | cons d ds ih =>
      intro o h
      have hd := h d List.mem_cons_self
      rw [List.foldl_cons, List.foldl_cons, ih _ fun e he => h e (List.mem_cons_of_mem d he)]
      congr 1
      cases d with
      | xStep c args => exact (if_pos (by simpa [Dispatch.Own] using hd)).symm
      | xInverse c args => exact (if_pos (by simpa [Dispatch.Own] using hd)).symm
      | xValue c => rfl
      | xFinal c => cases hd
  exact go ds (registered f) h

/-! ## An aggregate that sees every callback -/

/-- It counts steps, inverses and its own ends. -/
def tally (V : Type) : Aggregate Nat V Nat where
  init := 0
  xStep n _ := n + 1
  xInverse n _ := n + 1
  xValue n := n
  xFinal n := (n + 1, n)

/-- The call adds to or takes from the value. -/
def Dispatch.changes : Dispatch V → Bool
  | .xValue _ => false
  | _ => true

theorem state_after_tally (ds : List (Dispatch V)) :
    (UdfAdapter.after (tally V) ds).state = ds.countP Dispatch.changes := by
  have go : ∀ (ds : List (Dispatch V)) (o : Obj Nat V),
      (ds.foldl (fun o d => (UdfAdapter.dispatch (tally V) o d).1) o).state =
        o.state + ds.countP Dispatch.changes := by
    intro ds
    induction ds with
    | nil => intro o; rfl
    | cons d ds ih =>
      intro o
      rw [List.foldl_cons, ih, List.countP_cons]
      cases d <;> simp [UdfAdapter.dispatch, tally, Dispatch.changes] <;> omega
  rw [UdfAdapter.after, go]
  exact Nat.zero_add _

theorem ownFold_tally (ctx : Nat) (ds : List (Dispatch V)) :
    ownFold (tally V) ctx ds = ds.countP fun d => d.changes && d.Own ctx := by
  have go : ∀ (ds : List (Dispatch V)) (n : Nat),
      ds.foldl (ownStep (tally V) ctx) n = n + ds.countP fun d => d.changes && d.Own ctx := by
    intro ds
    induction ds with
    | nil => intro n; rfl
    | cons d ds ih =>
      intro n
      rw [List.foldl_cons, ih, List.countP_cons]
      cases d with
      | xStep c args =>
        simp only [ownStep, tally, Dispatch.changes, Dispatch.Own, Bool.true_and, decide_eq_true_eq]
        split <;> omega
      | xInverse c args =>
        simp only [ownStep, tally, Dispatch.changes, Dispatch.Own, Bool.true_and, decide_eq_true_eq]
        split <;> omega
      | xValue c => simp [ownStep, Dispatch.changes]
      | xFinal c => simp [ownStep, Dispatch.Own]
  rw [ownFold, go]
  exact Nat.zero_add _

/-- As many own changes as changes: every change is an own one. -/
theorem own_of_countP_eq {ctx : Nat} {ds : List (Dispatch V)}
    (h : ds.countP Dispatch.changes = ds.countP fun d => d.changes && d.Own ctx) :
    ∀ e ∈ ds, e.Own ctx = true := by
  induction ds with
  | nil => intro e he; cases he
  | cons d ds ih =>
    have hle : (ds.countP fun d => d.changes && d.Own ctx) ≤ ds.countP Dispatch.changes :=
      List.countP_mono_left fun e _ he => (Bool.and_eq_true _ _ ▸ he).1
    rw [List.countP_cons, List.countP_cons] at h
    intro e he
    by_cases hd : d.changes = true
    · by_cases ho : d.Own ctx = true
      · rcases List.mem_cons.mp he with rfl | he
        · exact ho
        · exact ih (by simp only [hd, ho, Bool.and_self, if_true] at h; omega) e he
      · simp only [hd, ho, Bool.and_false, if_true, Bool.false_eq_true, if_false] at h
        omega
    · rcases List.mem_cons.mp he with rfl | he
      · cases e with
        | xValue c => rfl
        | _ => exact absurd rfl hd
      · exact ih (by simp only [hd, Bool.false_and, Bool.false_eq_true, if_false] at h; omega) e he

/-- **Aggregates are isolated exactly in runs without a second context**: for
every run of callbacks, all aggregates and windows yield the fold of each
context's own steps and inverses, if and only if `f` has been stepped,
inverted and finished for no other context whenever one yields. -/
theorem isolated_iff_onlyOwn (ds : List (Dispatch V)) :
    (∀ (S R : Type) (f : Aggregate S V R), Isolated f ds) ↔ OnlyOwn ds := by
  constructor
  · intro h before d rest ctx hds hy
    have hd := h Nat Nat (tally V) before d rest hds
    refine own_of_countP_eq ?_
    rw [← state_after_tally, ← ownFold_tally]
    cases d with
    | xStep | xInverse => cases hy
    | xValue c =>
      cases hy
      exact congrArg Prod.snd (Option.some.inj hd)
    | xFinal c =>
      cases hy
      exact congrArg Prod.snd (Option.some.inj hd)
  · intro h S R f before d rest hds
    cases d with
    | xStep | xInverse => rfl
    | xValue ctx =>
      have := state_after_own f (h before _ rest ctx hds rfl)
      simp only [UdfAdapter.dispatch, expected, this]
    | xFinal ctx =>
      have := state_after_own f (h before _ rest ctx hds rfl)
      simp only [UdfAdapter.dispatch, expected, this]

/-- `mySum` of the driver's own tests. -/
def mySum : Aggregate Int32 Int32 Int32 where
  init := 0
  xStep val args := args.foldl (· + ·) val
  xInverse val args := args.foldl (· - ·) val
  xValue val := val
  xFinal val := (val, val)

/-- `select mySum(a), mySum(b) from t` over the row `(5, 3)`: both columns are 8. -/
theorem mySum_shared : ¬ Isolated mySum [.xStep 1 [5], .xStep 2 [3], .xFinal 1, .xFinal 2] := by
  intro h
  have h1 := h [.xStep 1 [5], .xStep 2 [3]] (.xFinal 1) [.xFinal 2] rfl
  exact absurd h1 (by decide)

end Aggregates

end Sqlol

/-
The shape of the rows `queryRows` and `runUserRows` return.

`decodeRows` reads the number and the names of the columns, then steps. The
first step compiles a statement whose schema is stale again, so the rows may
have other columns than the ones read before. `rows_run_iff` says of every
call in every run when its rows are those the statement showed: when the step
that began the execution gave no row, or compiled the statement to the columns
it had. `stale_columns` is a cached `SELECT *` behind an `ALTER TABLE`.
-/
import Sqlol.Lifecycle

namespace Sqlol

namespace RowShape

open Statements

variable {g : Statements.Guest} {h : Nat} {s : State} {e : Start} {cols : List String}

/-! ## Reading a row -/

/-- A statement as a reader of columns finds it, and the notes. -/
structure View where
  st : Stmt
  shown : List SqliteRow
  starts : List Start

/-- What a row's shape depends on. -/
def view (h : Nat) (s : State) : View := ⟨s.store h, s.shown, s.starts⟩

variable {v : View}

theorem read_view {α : Type} {f : Stmt → α} (hv : view h s = v) :
    (Statements.read g h f).wp (fun a s' => a = f v.st ∧ view h s' = v) (fun _ => True) s := by
  subst hv
  simp only [Statements.read, call, Prog.wp_bind, use_wp, tick_wp, Prog.wp_throwIf, Prog.wp_get, Prog.wp_pure]
  split
  · trivial
  · exact ⟨rfl, rfl⟩

/-- A value is read back by its storage class. -/
theorem decode_view {i : Nat} (hv : view h s = v) :
    (decode g h i).wp (fun a s' => a = column i v.st ∧ view h s' = v) (fun _ => True) s := by
  refine Prog.wp_then (read_view hv) fun ty s₁ h₁ => ?_
  obtain ⟨rfl, hv₁⟩ := h₁
  cases hc : column i v.st with
  | null => exact ⟨rfl, hv₁⟩
  | long n =>
    refine Prog.wp_then (read_view hv₁) fun a s₂ h₂ => ?_
    rw [hc] at h₂
    exact ⟨congrArg Value.long h₂.1, h₂.2⟩
  | double x =>
    refine Prog.wp_then (read_view hv₁) fun a s₂ h₂ => ?_
    rw [hc] at h₂
    exact ⟨congrArg Value.double h₂.1, h₂.2⟩
  | text t =>
    refine Prog.wp_then (read_view hv₁) fun a s₂ h₂ => ?_
    rw [hc] at h₂
    exact ⟨congrArg Value.text h₂.1, h₂.2⟩
  | blob b =>
    refine Prog.wp_then (read_view hv₁) fun a s₂ h₂ => ?_
    rw [hc] at h₂
    exact ⟨congrArg Value.blob h₂.1, h₂.2⟩

theorem range_getD {α : Type} {l : List α} {d : α} : ((List.range l.length).map fun i => l.getD i d) = l := by
  apply List.ext_getElem
  · simp
  · intro i h₁ h₂
    simp [List.getD_eq_getElem?_getD, List.getElem?_eq_getElem h₂]

/-- The row as read under `cols`. -/
def clip (cols : List String) (r : SqliteRow) : SqliteRow :=
  ⟨cols, (List.range cols.length).map fun i => r.values.getD i .null⟩

theorem clip_self {r : SqliteRow} (hcols : r.columns = cols) (hlen : r.values.length = cols.length) :
    clip cols r = r := by
  obtain ⟨columns, values⟩ := r
  subst hcols
  simp only [clip, ← hlen, range_getD]

/-! ## An execution -/

/-- The rows shown are those of the execution that began with `e`. -/
structure Showing (g : Statements.Guest) (e : Start) (s : State) : Prop where
  head : s.starts.head? = some e
  shape : ∀ r ∈ s.shown, r.columns = g.columns e.time e.was.sql ∧ r.values.length = r.columns.length
  rowed : g.stepRc e.time = ROW ↔ s.shown ≠ []

/-- The statement is at a row of it. -/
structure Running (g : Statements.Guest) (h : Nat) (e : Start) (s : State) : Prop extends Showing g e s where
  cursor : (s.store h).cursor = .running
  names : (s.store h).names = g.columns e.time e.was.sql
  some : s.shown ≠ []

/-- Ready for the next step of the execution, with the rows of `old` shown before it. -/
def Next (g : Statements.Guest) (h : Nat) (e : Start) (old : List SqliteRow) (s : State) : Prop :=
  (Running g h e s ∧ s.shown = old) ∨
    ((s.store h).cursor ≠ .running ∧ old = [] ∧ e = ⟨s.store h, s.current, s.time⟩)

/-- Behind the notes of a step at `t`, with the statement compiled. -/
structure Noted (g : Statements.Guest) (h : Nat) (e : Start) (old : List SqliteRow) (t : Nat) (s : State) : Prop where
  head : s.starts.head? = some e
  shown : s.shown = old
  names : (recompile g t (s.store h)).names = g.columns e.time e.was.sql
  shape : ∀ r ∈ old, r.columns = g.columns e.time e.was.sql ∧ r.values.length = r.columns.length
  rowed : (old = [] ∧ e.time = t) ∨ (old ≠ [] ∧ g.stepRc e.time = ROW)

theorem Next.noted {old : List SqliteRow} {time : Nat} {log : List Event} (hn : Next g h e old s) :
    Noted g h e old s.time (noteStart s.time h { s with time, log }) := by
  rcases hn with ⟨hr, rfl⟩ | ⟨hcur, rfl, rfl⟩
  · have hnote : noteStart s.time h { s with time, log } = { s with time, log } := if_pos hr.cursor
    have hre : recompile g s.time (s.store h) = s.store h := if_pos hr.cursor
    rw [hnote]
    exact ⟨hr.head, rfl, by rw [hre]; exact hr.names, hr.shape, .inr ⟨hr.some, hr.rowed.mpr hr.some⟩⟩
  · have hnote : noteStart s.time h { s with time, log } =
        { s with time, log, starts := ⟨s.store h, s.current, s.time⟩ :: s.starts, shown := [] } := if_neg hcur
    have hre : recompile g s.time (s.store h) = { s.store h with names := g.columns s.time (s.store h).sql } :=
      if_neg hcur
    rw [hnote]
    exact ⟨rfl, rfl, by rw [hre], nofun, .inl ⟨rfl, rfl⟩⟩

/-- What a step shows. -/
theorem step_shows {old : List SqliteRow} (hn : Next g h e old s) :
    (sqlite3Step g h).wp
      (fun rc s' => (rc = ROW → Running g h e s' ∧ ∃ row, s'.shown = old ++ [row] ∧ row.values = (s'.store h).row) ∧
        (rc ≠ ROW → Showing g e s' ∧ s'.shown = old))
      (fun _ => True) s := by
  simp only [sqlite3Step, Prog.wp_bind, use_wp, tick_wp, Prog.wp_modify, setStmt_wp]
  have hm : Noted g h e old s.time (noteStart s.time h { s with time := s.time + 1, log := .used h :: s.log }) :=
    hn.noted
  generalize noteStart s.time h { s with time := s.time + 1, log := .used h :: s.log } = s₁ at hm
  have hnames := hm.names
  generalize recompile g s.time (s₁.store h) = st at hnames
  split
  · trivial
  · split
    · next hrow =>
      simp only [Prog.wp_bind, setStmt_wp, Prog.wp_modify, Prog.wp_pure, Function.update_self, Function.update_idem]
      have hself := Function.update_self h { st with
        cursor := .running, row := (List.range st.names.length).map (g.cell s.time) } s₁.store
      have hsome : s₁.shown ++ [⟨st.names, (List.range st.names.length).map (g.cell s.time)⟩] ≠ [] := by simp
      refine ⟨fun _ => ⟨⟨⟨hm.head, fun r hr => ?_, fun _ => hsome, fun _ => ?_⟩, congrArg Stmt.cursor hself,
        (congrArg Stmt.names hself).trans hnames, hsome⟩, _, by rw [hm.shown], rfl⟩,
        fun hne => absurd rfl hne⟩
      · rcases List.mem_append.mp hr with hr | hr
        · exact hm.shape r (hm.shown ▸ hr)
        · rw [List.mem_singleton.mp hr]
          exact ⟨hnames, by simp⟩
      · rcases hm.rowed with ⟨-, ht⟩ | ⟨-, h⟩
        · rw [ht]; exact hrow
        · exact h
    · next hrow =>
      simp only [Prog.wp_bind, setStmt_wp, Prog.wp_pure, Function.update_self, Function.update_idem]
      refine ⟨fun h => absurd h hrow, fun _ => ⟨⟨hm.head, fun r hr => hm.shape r (hm.shown ▸ hr), fun h => ?_,
        fun h => ?_⟩, hm.shown⟩⟩
      · rcases hm.rowed with ⟨-, ht⟩ | ⟨hsome, -⟩
        · rw [ht] at h; exact absurd h hrow
        · show s₁.shown ≠ []
          rw [hm.shown]; exact hsome
      · rcases hm.rowed with ⟨hnone, -⟩ | ⟨-, hr⟩
        · exact absurd (hm.shown.trans hnone) h
        · exact hr

/-- The statement at a row of an execution that will be read under `cols`. -/
theorem turn_shows {old : List SqliteRow} (hn : Next g h e old s) :
    (turn g h cols).wp
      (fun r s' => match r with
        | .row r => Running g h e s' ∧ ∃ x, s'.shown = old ++ [x] ∧ r = clip cols x
        | .done => Showing g e s' ∧ s'.shown = old
        | .busy => True)
      (fun _ => True) s := by
  refine Prog.wp_then (step_shows hn) fun rc s₁ h₁ => ?_
  split
  · next hrow =>
    obtain ⟨hr, x, hshown, hvalues⟩ := h₁.1 hrow
    refine Prog.wp_then (Prog.wp_listFrom (I := fun s' => view h s' = view h s₁) (fun i _ s hs => decode_view hs)
      cols.length 0 s₁ (zero_add _).le rfl) fun values s₂ h₂ => ?_
    obtain ⟨hread, hview⟩ := h₂
    have hstore : s₂.store h = s₁.store h := congrArg View.st hview
    have hshown₂ : s₂.shown = s₁.shown := congrArg View.shown hview
    have hstarts : s₂.starts = s₁.starts := congrArg View.starts hview
    refine ⟨⟨⟨hstarts ▸ hr.head, hshown₂ ▸ hr.shape, hshown₂ ▸ hr.rowed⟩, hstore ▸ hr.cursor, hstore ▸ hr.names,
      hshown₂ ▸ hr.some⟩, x, hshown₂.trans hshown, ?_⟩
    rw [hread, clip, hvalues, List.range_eq_range']
    rfl
  · next hrow =>
    split
    · exact h₁.2 hrow
    · split <;> trivial

theorem turns_shows {room : Nat} {rows old : List SqliteRow} (hn : Next g h e old s)
    (hrows : rows = old.map (clip cols)) :
    (turns g h cols room rows).wp
      (fun r s' => ∀ rows, r = some rows → Showing g e s' ∧ rows = s'.shown.map (clip cols)) (fun _ => True) s := by
  induction room generalizing rows old s with
  | zero =>
    unfold turns
    refine Prog.wp_then (turn_shows hn) fun r s₁ h₁ => ?_
    cases r with
    | row r => trivial
    | done =>
      intro rows' heq
      cases heq
      exact ⟨h₁.1, by rw [h₁.2]; exact hrows⟩
    | busy =>
      intro rows' heq
      cases heq
  | succ room ih =>
    unfold turns
    refine Prog.wp_then (turn_shows hn) fun r s₁ h₁ => ?_
    cases r with
    | row r =>
      obtain ⟨hr, x, hshown, rfl⟩ := h₁
      refine ih (.inl ⟨hr, rfl⟩) ?_
      rw [hshown, hrows, List.map_append]
      rfl
    | done =>
      intro rows' heq
      cases heq
      exact ⟨h₁.1, by rw [h₁.2]; exact hrows⟩
    | busy =>
      intro rows' heq
      cases heq

/-- The step that began the execution gave no row, or left the statement the columns it had. -/
def Kept (g : Statements.Guest) (s : State) : Prop :=
  ∀ e ∈ s.starts.head?, g.stepRc e.time = ROW → g.columns e.time e.was.sql = e.was.names

/-- The rows are the ones shown, under that condition and no other. -/
def Shaped (g : Statements.Guest) (r : Option (List SqliteRow)) (s : State) : Prop :=
  ∀ rows, r = some rows → (rows = s.shown ↔ Kept g s)

theorem Showing.iff (hs : Showing g e s) : s.shown.map (clip e.was.names) = s.shown ↔ Kept g s := by
  constructor
  · intro heq e' he' hrow
    rw [hs.head] at he'
    cases he'
    obtain ⟨r, rest, hcons⟩ := List.exists_cons_of_ne_nil (hs.rowed.mp hrow)
    rw [hcons] at heq
    have hclip : clip e.was.names r = r := (List.cons.inj heq).1
    have hcols := (hs.shape r (hcons ▸ List.mem_cons_self)).1
    rw [← hcols, ← hclip]
    rfl
  · intro hk
    have hid : ∀ r ∈ s.shown, clip e.was.names r = r := fun r hr => by
      have hcols := hk e hs.head (hs.rowed.mpr (List.ne_nil_of_mem hr))
      obtain ⟨hc, hl⟩ := hs.shape r hr
      exact clip_self (hc.trans hcols) (hl.trans (by rw [hc, hcols]))
    exact (List.map_congr_left hid).trans (List.map_id _)

theorem decodeRows_shaped (hcur : (s.store h).cursor ≠ .running) :
    (decodeRows g h).wp (Shaped g) (fun _ => True) s := by
  refine Prog.wp_then (read_view rfl) fun n s₁ h₁ => ?_
  obtain ⟨rfl, hv₁⟩ := h₁
  refine Prog.wp_then (Prog.wp_listFrom (I := fun s' => view h s' = view h s) (fun i _ s hs => read_view hs) _ 0 s₁
    (zero_add _).le hv₁) fun cols s₂ h₂ => ?_
  obtain ⟨hcols, hv₂⟩ := h₂
  have hstore : s₂.store h = s.store h := congrArg View.st hv₂
  have hnames : cols = (s₂.store h).names := by
    rw [hcols, hstore, ← List.range_eq_range']
    exact range_getD
  have hn : Next g h ⟨s₂.store h, s₂.current, s₂.time⟩ [] s₂ := .inr ⟨by rw [hstore]; exact hcur, rfl, rfl⟩
  refine Prog.wp_mono (turns_shows hn rfl) (fun r s₃ h₃ rows hr => ?_) fun _ h => h
  obtain ⟨hs, rfl⟩ := h₃ rows hr
  rw [hnames]
  exact hs.iff

/-! ## The calls -/

/-- A bind changes the bindings. -/
theorem bind_cursor {i : Nat} {value : Value} {x : Cursor} (hx : (s.store h).cursor = x) :
    (sqlite3Bind g h i value).wp (fun _ s' => (s'.store h).cursor = x) (fun _ => True) s := by
  have hset : ∀ B, (Function.update s.store h { s.store h with bindings := B } h).cursor = x := fun B => by
    rw [Function.update_self]
    exact hx
  simp only [sqlite3Bind, Prog.wp_bind, use_wp, tick_wp, Prog.wp_get]
  split
  · simp only [Prog.wp_bind, setStmt_wp, Prog.wp_throw]
  · split
    · exact hx
    · split
      · exact hx
      · split <;> exact hset _

theorem bindFrom_cursor {i : Nat} {params : List Param} {x : Cursor} (hx : (s.store h).cursor = x) :
    (bindFrom g h i params).wp (fun _ s' => (s'.store h).cursor = x) (fun _ => True) s := by
  induction params generalizing i s with
  | nil => exact hx
  | cons p ps ih =>
    unfold bindFrom bindOne
    cases p.value with
    | none => trivial
    | some value =>
      refine Prog.wp_then (bind_cursor hx) fun rc s₁ h₁ => ?_
      simp only [Prog.wp_bind, Prog.wp_throwIf]
      split
      · trivial
      · exact ih h₁

theorem bindAndDecode_shaped {params : List Param} (hcur : (s.store h).cursor = .reset) :
    (bindAndDecode g h params).wp (Shaped g) (fun _ => True) s := by
  refine Prog.wp_then (bindFrom_cursor hcur) fun _ s₁ h₁ => decodeRows_shaped ?_
  rw [h₁]
  exact nofun

/-- The `finally` block leaves the notes alone. -/
theorem tryFinally_shaped {body : Op (Option (List SqliteRow))} {final : Op Unit}
    (hbody : body.wp (Shaped g) (fun _ => True) s)
    (hfinal : ∀ s, final.wp (fun _ s' => s'.shown = s.shown ∧ s'.starts = s.starts) (fun _ => True) s) :
    (Prog.tryFinally body final).wp (Shaped g) (fun _ => True) s := by
  rw [Prog.wp_tryFinally]
  refine Prog.wp_mono hbody (fun r s₁ h₁ => ?_) fun s₁ _ =>
    Prog.wp_mono (hfinal s₁) (fun _ _ _ => trivial) fun _ h => h
  refine Prog.wp_mono (hfinal s₁) (fun _ s₂ h₂ => ?_) fun _ h => h
  intro rows hr
  rw [h₂.1, Kept, h₂.2]
  exact h₁ rows hr

theorem reset_notes : (sqlite3Reset h).wp (fun _ s' => s'.shown = s.shown ∧ s'.starts = s.starts) (fun _ => True) s :=
  ⟨rfl, rfl⟩

theorem resetAndClear_notes {params : List Param} :
    (resetAndClear h params).wp (fun _ s' => s'.shown = s.shown ∧ s'.starts = s.starts) (fun _ => True) s := by
  cases params <;> exact ⟨rfl, rfl⟩

variable {c : Ctx} {params : List Param}

theorem queryRows_shaped {sql : String} (hc : Calm c s) (hp : c.params = params) :
    (queryRows g sql params).wp (fun rows => Shaped g (some rows)) (fun _ => True) s := by
  refine Prog.wp_retry (I := Calm c) (fun s hs => ?_) (fun s hs => ?_) (fun _ _ => trivial) ATTEMPTS s hc
  · exact Prog.wp_mono (sleep_calm hs) (fun _ _ h => h) fun _ _ => trivial
  · have hshaped : (queryRowsOnce g sql params).wp (Shaped g) (fun _ => True) s := by
      refine queryRowsOnce_wp hs (fun _ _ => trivial) (fun _ _ => nofun) fun h s hs hm => ?_
      exact tryFinally_shaped (bindAndDecode_shaped (hs.idle _ hm nofun).1) fun _ => resetAndClear_notes
    refine Prog.wp_mono (Prog.wp_and (queryRowsOnce_calm hp hs) hshaped) (fun r s' h => ?_) fun _ _ => trivial
    cases r with
    | some rows => exact h.2
    | none => exact h.1

theorem runUserRows_shaped (hc : Calm c s) (hp : c.params = params) (hstrict : ¬c.strict) :
    (runUserRows g h params).wp (fun rows => Shaped g (some rows)) (fun _ => True) s := by
  subst hp
  simp only [runUserRows, Prog.wp_bind, Prog.wp_get, Prog.wp_throwIf]
  split
  · trivial
  · next hu =>
    have hown := hc.own (h := h) (by simpa using hu)
    refine Prog.wp_retry (fun s hs => ?_) (fun s hs => ?_) (fun _ _ => trivial) ATTEMPTS s hown
    · exact Prog.wp_mono (sleep_calm hs) (fun _ _ h => h) fun _ _ => trivial
    · have hreset : (s.store h).cursor = .reset :=
        hs.still h (hs.sizes _ List.mem_cons_self).1 (Option.some_ne_none h).symm
      have hshaped : (Prog.tryFinally (bindAndDecode g h c.params) (sqlite3Reset h)).wp (Shaped g)
          (fun _ => True) s :=
        tryFinally_shaped (bindAndDecode_shaped hreset) fun _ => reset_notes
      refine Prog.wp_mono (Prog.wp_and (user_calm hs List.mem_cons_self (fun h => absurd h hstrict)
        fun s b hs => bindAndDecode_wp hs) hshaped) (fun r s' h => ?_) fun _ _ => trivial
      cases r with
      | some rows => exact h.2
      | none => exact h.1

/-- A call that returned rows. -/
def Returns (g : Statements.Guest) (s : State) (rows : List SqliteRow) (s' : State) : Call → Prop
  | .queryRows sql params => queryRows g sql params { s with current := params } = (some rows, s')
  | .runUserRows h params => runUserRows g h params { s with current := params } = (some rows, s')
  | _ => False

/-- **When rows have the shape of the statement that ran**: in every run, the
rows of a call are those the statement showed, names, number and values, just
when the step that began their execution gave no row or compiled the statement
to the columns it had before. -/
theorem rows_run_iff (g : Statements.Guest) (calls : List Call) :
    EveryStep (step g) (fun s call => ∀ rows s', Returns g s rows s' call → (rows = s'.shown ↔ Kept g s')) {}
      calls := by
  refine everyStep_of_invariant (I := Settled) (fun s call s' hs _ hstep => step_settled hs hstep)
    (fun s call hs _ rows s' hret => ?_) ⟨[], calm_empty⟩ everyStep_true
  obtain ⟨params, hc⟩ := hs
  cases call with
  | queryRows sql params' =>
    exact Prog.wp_returned (queryRows_shaped (hc.next params') rfl) hret rows rfl
  | runUserRows k params' =>
    exact Prog.wp_returned (runUserRows_shaped (hc.next params') rfl id) hret rows rfl
  | _ => exact hret.elim

/-- Another connection adds the column `b` between the two calls. -/
def altered : Statements.Guest := { quiet with
  columns := fun t _ => if t < 7 then ["a"] else ["a", "b"]
  stepRc := fun t => if t = 3 ∨ t = 9 then ROW else DONE
  cell := fun _ i => .long i }

/-- Whose columns change when the table does. -/
def selectAll : String := "SELECT * FROM t"

/-- Behind a first call. -/
def firstCall : State := (Call.exec altered (.queryRows selectAll []) {}).2

/-- The same text again, over the table as it is then. -/
def secondCall : Option (List SqliteRow) × State := queryRows altered selectAll [] { firstCall with current := [] }

/-- The second call steps the statement as it is now, and returns the row without `b`. -/
theorem stale_columns : ¬EveryStep (step altered)
    (fun s call => ∀ rows s', Returns altered s rows s' call → rows = s'.shown) {}
    [.queryRows selectAll [], .queryRows selectAll []] := by
  intro hrun
  have hrows : secondCall.1.map (·.map SqliteRow.columns) = some [["a"]] := by decide +kernel
  have hshown : secondCall.2.shown.map SqliteRow.columns = [["a", "b"]] := by decide +kernel
  obtain ⟨rows, hreturned, hcols⟩ := Option.map_eq_some_iff.mp hrows
  have hright : rows = secondCall.2.shown := (hrun.2 firstCall rfl).1 rows secondCall.2 (Prod.ext hreturned rfl)
  rw [← hright, hcols] at hshown
  exact absurd hshown (by decide)

end RowShape

end Sqlol

/-
What a session's calls do to its statements.

Between two calls (`Good` with nobody busy) the handles in use are those of the
cache and of the user, each once; the cached statements are reset with every
parameter NULL, and the user's are reset. A call works on one statement at a
time (`Working`), and its `finally` block puts the statement back, however the
call ends. What a step sees of the bindings is part of it; whose parameters
they are is up to the caller (`Ctx`).
-/
import Sqlol.Statements
import Mathlib.Data.List.Perm.Basic

namespace Sqlol

namespace Statements

/-- Nothing is done with a handle that is not live, and none is given out that is. -/
def Sound : List Event → Prop
  | [] => True
  | .prepared h :: log => h ∉ live log ∧ Sound log
  | .finalized h :: log | .used h :: log => h ∈ live log ∧ Sound log

/-- Reset, with every parameter NULL. -/
def Stmt.Idle (st : Stmt) : Prop := st.cursor = .reset ∧ st.bindings = fun _ => .null

/-- The value of the `i`-th parameter of a call, counted from 1: NULL when the call has none. -/
def expected (params : List Param) (i : Nat) : Option Value := match params[i - 1]? with
  | some p => p.value
  | none => some .null

/-- The statement has the bindings of the call and no others. -/
def Start.Seen (e : Start) : Prop :=
  ∀ i, 1 ≤ i → i ≤ e.was.params → expected e.params i = some (e.was.bindings i)

/-- What is known of a call: whether its caller binds every parameter, the
user's statements that have to stay with their number of parameters, and the
parameters of the call. -/
structure Ctx where
  strict : Prop
  sizes : List (Nat × Nat)
  params : List Param

/-- The handles in use are those of the cache and of the user, each once;
`loose` are handles that are in use and not yet kept anywhere. -/
structure Owned (loose : List Nat) (s : State) : Prop where
  sound : Sound s.log
  nodup : (live s.log).Nodup
  owned : (loose ++ (s.cache.map Prod.snd ++ s.user)).Perm (live s.log)

/-- The statements, all but the `busy` one as they are between two calls. -/
structure Good (c : Ctx) (busy : Option Nat) (loose : List Nat) (s : State) : Prop extends Owned loose s where
  small : s.cache.length ≤ Session.STMT_CACHE
  keys : ∀ e ∈ s.cache, (s.store e.2).sql = e.1
  idle : ∀ e ∈ s.cache, busy ≠ some e.2 → (s.store e.2).Idle
  still : ∀ h ∈ s.user, busy ≠ some h → (s.store h).cursor = .reset
  sizes : ∀ x ∈ c.sizes, x.1 ∈ s.user ∧ (s.store x.1).params = x.2
  starts : ∀ e ∈ s.starts, e.was.cursor = .reset ∧ (c.strict → e.Seen)
  current : s.current = c.params

/-- Between two attempts. -/
def Calm (c : Ctx) (s : State) : Prop := Good c none [] s

/-- The statement `h` is in hand; without parameters its bindings stay `b`. -/
structure Working (c : Ctx) (h : Nat) (b : Nat → Value) (s : State) : Prop where
  good : Good c (some h) [] s
  there : h ∈ live s.log
  kept : c.params = [] → (s.store h).bindings = b

/-- The statement in hand, and something known of it. -/
def At (c : Ctx) (h : Nat) (b : Nat → Value) (P : Stmt → Prop) (s : State) : Prop :=
  Working c h b s ∧ P (s.store h)

variable {c : Ctx} {g : Guest} {h i : Nat} {b : Nat → Value} {s : State}

namespace Owned

variable {loose : List Nat} {s' : State}

theorem live_of_cached (ho : Owned loose s) {sql : String} (hm : (sql, h) ∈ s.cache) : h ∈ live s.log := by
  refine ho.owned.mem_iff.mp ?_
  exact List.mem_append_right _ (List.mem_append_left _ (List.mem_map.mpr ⟨_, hm, rfl⟩))

theorem live_of_user (ho : Owned loose s) (hm : h ∈ s.user) : h ∈ live s.log :=
  ho.owned.mem_iff.mp (List.mem_append_right _ (List.mem_append_right _ hm))

/-- A statement is in the cache or the user's. -/
theorem not_user (ho : Owned loose s) {sql : String} (hm : (sql, h) ∈ s.cache) : h ∉ s.user := by
  intro hu
  have hn := ho.owned.nodup_iff.mpr ho.nodup
  have hn := (List.nodup_append.mp hn).2.1
  exact (List.nodup_append.mp hn).2.2 h (List.mem_map.mpr ⟨_, hm, rfl⟩) h hu rfl

/-- A loose one is neither. -/
theorem not_kept (ho : Owned [h] s) : h ∉ s.cache.map Prod.snd ++ s.user :=
  (List.nodup_cons.mp (ho.owned.nodup_iff.mpr ho.nodup)).1

/-- A call with a handle in use, or none. -/
theorem used (ho : Owned loose s) (hl : h ∈ live s.log) (hlog : s'.log = s.log ∨ s'.log = .used h :: s.log)
    (hcache : s'.cache = s.cache) (huser : s'.user = s.user) : Owned loose s' ∧ live s'.log = live s.log := by
  have hlive : live s'.log = live s.log := by
    rcases hlog with h | h
    · rw [h]
    · rw [h]; rfl
  refine ⟨⟨?_, hlive ▸ ho.nodup, ?_⟩, hlive⟩
  · rcases hlog with h | h <;> rw [h]
    · exact ho.sound
    · exact ⟨hl, ho.sound⟩
  · rw [hcache, huser, hlive]
    exact ho.owned

theorem prepared (ho : Owned loose s) (hnew : h ∉ live s.log) (hlog : s'.log = .prepared h :: s.log)
    (hcache : s'.cache = s.cache) (huser : s'.user = s.user) : Owned (h :: loose) s' := by
  refine ⟨?_, ?_, ?_⟩ <;> rw [hlog]
  · exact ⟨hnew, ho.sound⟩
  · exact List.nodup_cons.mpr ⟨hnew, ho.nodup⟩
  · rw [hcache, huser]
    exact ho.owned.cons h

theorem keep (ho : Owned [h] s) : Owned [] { s with user := s.user ++ [h] } := by
  refine ⟨ho.sound, ho.nodup, ?_⟩
  refine List.Perm.trans ?_ ho.owned
  show (s.cache.map Prod.snd ++ (s.user ++ [h])).Perm _
  rw [← List.append_assoc]
  exact List.perm_append_comm

theorem cached (ho : Owned [h] s) {sql : String} : Owned [] { s with cache := s.cache ++ [(sql, h)] } := by
  refine ⟨ho.sound, ho.nodup, List.Perm.trans ?_ ho.owned⟩
  show ((s.cache ++ [(sql, h)]).map Prod.snd ++ s.user).Perm _
  rw [List.map_append, List.append_assoc]
  exact List.perm_middle

/-- The eldest entry leaves the cache. -/
theorem evicted {eldest : String × Nat} {rest : List (String × Nat)} (ho : Owned [] s)
    (hcache : s.cache = eldest :: rest) :
    Owned [] { s with cache := rest, log := .finalized eldest.2 :: s.log } := by
  have hmem : (eldest.1, eldest.2) ∈ s.cache := by rw [hcache]; exact List.mem_cons_self
  refine ⟨⟨ho.live_of_cached hmem, ho.sound⟩, ho.nodup.erase _, ?_⟩
  have := ho.owned.erase eldest.2
  rwa [hcache, List.map_cons, List.nil_append, List.cons_append, List.erase_cons_head] at this

theorem finalized (ho : Owned [] s) (hu : h ∈ s.user) :
    Owned [] { s with user := s.user.erase h, log := .finalized h :: s.log } := by
  have hcache : h ∉ s.cache.map Prod.snd := fun hm => by
    obtain ⟨⟨sql, k⟩, he, rfl⟩ := List.mem_map.mp hm
    exact ho.not_user he hu
  refine ⟨⟨ho.live_of_user hu, ho.sound⟩, ho.nodup.erase _, ?_⟩
  have := ho.owned.erase h
  rwa [List.nil_append, List.erase_append_right _ hcache] at this

end Owned

/-- A call with the statement in hand: `x` is the statement behind it. -/
structure Touches (h : Nat) (x : Stmt) (s s' : State) : Prop where
  log : s'.log = s.log ∨ s'.log = .used h :: s.log
  cache : s'.cache = s.cache
  user : s'.user = s.user
  current : s'.current = s.current
  self : s'.store h = x
  other : ∀ k, k ≠ h → s'.store k = s.store k
  sql : x.sql = (s.store h).sql
  params : x.params = (s.store h).params

theorem Good.touch (hg : Good c (some h) [] s) (hl : h ∈ live s.log) {s' : State} {x : Stmt} (ht : Touches h x s s')
    (hstarts : ∀ e ∈ s'.starts, e ∈ s.starts ∨ (e.was.cursor = .reset ∧ (c.strict → e.Seen))) :
    Good c (some h) [] s' := by
  refine ⟨(hg.used hl ht.log ht.cache ht.user).1, ht.cache ▸ hg.small, fun e he => ?_, fun e he hbusy => ?_,
    fun k hk hbusy => ?_, fun y hy => ?_, fun e he => ?_, ht.current.trans hg.current⟩
  · rw [ht.cache] at he
    by_cases heh : e.2 = h
    · rw [heh, ht.self, ht.sql, ← heh]
      exact hg.keys e he
    · rw [ht.other e.2 heh]
      exact hg.keys e he
  · have heh : e.2 ≠ h := fun heh => hbusy (congrArg some heh.symm)
    rw [ht.other e.2 heh]
    exact hg.idle e (ht.cache ▸ he) hbusy
  · have hkh : k ≠ h := fun hkh => hbusy (congrArg some hkh.symm)
    rw [ht.other k hkh]
    exact hg.still k (ht.user ▸ hk) hbusy
  · obtain ⟨hu, hp⟩ := hg.sizes y hy
    refine ⟨ht.user ▸ hu, ?_⟩
    by_cases hyh : y.1 = h
    · rw [hyh, ht.self, ht.params, ← hyh]
      exact hp
    · rw [ht.other y.1 hyh]
      exact hp
  · rcases hstarts e he with h | h
    · exact hg.starts e h
    · exact h

theorem Working.touch (hw : Working c h b s) {s' : State} {x : Stmt} (ht : Touches h x s s')
    (hb : c.params = [] → x.bindings = (s.store h).bindings)
    (hstarts : ∀ e ∈ s'.starts, e ∈ s.starts ∨ (e.was.cursor = .reset ∧ (c.strict → e.Seen))) :
    Working c h b s' := by
  refine ⟨hw.good.touch hw.there ht hstarts, ?_, fun hc => ?_⟩
  · rw [(hw.good.used hw.there ht.log ht.cache ht.user).2]
    exact hw.there
  · rw [ht.self, hb hc]
    exact hw.kept hc

/-- The statement is changed by `f`. -/
theorem touches_set {time : Nat} {log : List Event} {starts : List Start} {shown : List SqliteRow} {x : Stmt}
    (hlog : log = s.log ∨ log = .used h :: s.log) (hsql : x.sql = (s.store h).sql)
    (hparams : x.params = (s.store h).params) :
    Touches h x s { s with time, log, store := Function.update s.store h x, starts, shown } :=
  ⟨hlog, rfl, rfl, rfl, Function.update_self .., fun _ hk => Function.update_of_ne hk .., hsql, hparams⟩

/-- One that leaves the statement as it is. -/
theorem Working.pass (hw : Working c h b s) {time : Nat} {log : List Event}
    (hlog : log = s.log ∨ log = .used h :: s.log) : Working c h b { s with time, log } :=
  hw.touch ⟨hlog, rfl, rfl, rfl, rfl, fun _ _ => rfl, rfl, rfl⟩ (fun _ => rfl) fun _ he => .inl he

/-! ## The calls -/

theorem tick_wp {Q : Nat → State → Prop} {E : State → Prop} :
    tick.wp Q E s ↔ Q s.time { s with time := s.time + 1 } := Iff.rfl

theorem use_wp {Q : Unit → State → Prop} {E : State → Prop} :
    (use h).wp Q E s ↔ Q () { s with log := .used h :: s.log } := Iff.rfl

theorem setStmt_wp {f : Stmt → Stmt} {Q : Unit → State → Prop} {E : State → Prop} :
    (setStmt h f).wp Q E s ↔ Q () { s with store := Function.update s.store h (f (s.store h)) } := Iff.rfl

theorem read_wp {α : Type} {f : Stmt → α} {P : Stmt → Prop} (ha : At c h b P s) :
    (read g h f).wp (fun _ => At c h b P) (Working c h b) s := by
  simp only [read, call, Prog.wp_bind, use_wp, tick_wp, Prog.wp_throwIf, Prog.wp_get, Prog.wp_pure]
  have hw : Working c h b { s with time := s.time + 1, log := .used h :: s.log } := ha.1.pass (.inr rfl)
  split
  · exact hw
  · exact ⟨hw, ha.2⟩

/-- The bindings, on a reset statement with `n` parameters. -/
def Bound (n : Nat) (B : Nat → Value) (st : Stmt) : Prop := st.cursor = .reset ∧ st.params = n ∧ st.bindings = B

theorem bind_wp {n : Nat} {B : Nat → Value} {v : Value} (hne : c.params ≠ []) (ha : At c h b (Bound n B) s) :
    (sqlite3Bind g h i v).wp (fun rc => At c h b fun st => rc = 0 → Bound n (Function.update B i v) st)
      (Working c h b) s := by
  obtain ⟨hw, hcur, hn, hB⟩ := ha
  simp only [sqlite3Bind, Prog.wp_bind, use_wp, tick_wp, Prog.wp_get]
  have hpass : Working c h b { s with time := s.time + 1, log := .used h :: s.log } := hw.pass (.inr rfl)
  have hset : ∀ (v' : Value) (P : Stmt → Prop),
      P { s.store h with bindings := Function.update (s.store h).bindings i v' } →
      At c h b P { s with
        time := s.time + 1, log := .used h :: s.log
        store := Function.update s.store h
          { s.store h with bindings := Function.update (s.store h).bindings i v' } } :=
    fun v' P hP => by
      refine ⟨hw.touch (touches_set (.inr rfl) rfl rfl) (fun hc => absurd hc hne) fun e he => .inl he, ?_⟩
      show P (Function.update s.store h _ h)
      rw [Function.update_self]
      exact hP
  split
  · simp only [Prog.wp_bind, setStmt_wp, Prog.wp_throw]
    exact (hset _ (fun _ => True) trivial).1
  · split
    · exact ⟨hpass, fun h => absurd h (by decide)⟩
    · split
      · exact ⟨hpass, fun h => absurd h (by decide)⟩
      · split
        · next hrc =>
          simp only [Prog.wp_bind, setStmt_wp, Prog.wp_pure]
          exact hset _ _ fun h => absurd h hrc
        · simp only [Prog.wp_bind, setStmt_wp, Prog.wp_pure]
          exact hset _ _ fun _ => ⟨hcur, hn, by rw [hB]⟩

/-- The bindings behind `bindFrom`. -/
def overlay (B : Nat → Value) : Nat → List Param → Nat → Value
  | _, [] => B
  | i, p :: ps => overlay (Function.update B i (p.value.getD .null)) (i + 1) ps

theorem bindFrom_wp {n : Nat} (hne : c.params ≠ []) : ∀ {ps : List Param} {i : Nat} {B : Nat → Value} {s : State},
    At c h b (Bound n B) s → (bindFrom g h i ps).wp
      (fun _ s' => At c h b (Bound n (overlay B i ps)) s' ∧ ∀ p ∈ ps, p.value.isSome) (Working c h b) s
  | [], _, _, _, ha => ⟨ha, nofun⟩
  | p :: ps, i, B, s, ha => by
    cases hv : p.value with
    | none =>
      simp only [bindFrom, bindOne, hv, Prog.wp_bind, Prog.wp_throw]
      exact ha.1
    | some v =>
      simp only [bindFrom, bindOne, hv, overlay, Option.getD_some]
      refine Prog.wp_then (bind_wp hne ha) fun rc s' hs' => ?_
      simp only [Prog.wp_bind, Prog.wp_throwIf]
      split
      · exact hs'.1
      · next hrc =>
        have hrc : rc = 0 := by simpa using hrc
        refine Prog.wp_mono (bindFrom_wp hne ⟨hs'.1, hs'.2 hrc⟩) (fun _ s'' hs'' => ⟨hs''.1, fun q hq => ?_⟩)
          fun _ hs'' => hs''
        rcases List.mem_cons.mp hq with rfl | hq
        · rw [hv]; rfl
        · exact hs''.2 q hq

theorem overlay_lt {B : Nat → Value} {ps : List Param} {i j : Nat} (hj : j < i) : overlay B i ps j = B j := by
  induction ps generalizing B i with
  | nil => rfl
  | cons p ps ih =>
    rw [overlay, ih (by omega), Function.update_of_ne (by omega)]

theorem overlay_get {B : Nat → Value} {ps : List Param} {i j : Nat} (hj : i ≤ j) :
    overlay B i ps j = match ps[j - i]? with
      | some p => p.value.getD .null
      | none => B j := by
  induction ps generalizing B i with
  | nil => rfl
  | cons p ps ih =>
    rw [overlay]
    by_cases hji : j = i
    · subst hji
      rw [overlay_lt (by omega), Function.update_self, Nat.sub_self]
      rfl
    · rw [ih (by omega), Function.update_of_ne hji, show j - i = j - (i + 1) + 1 by omega]
      rfl

/-- The next step goes on, or begins with the bindings of the call. -/
def Steppable (c : Ctx) (st : Stmt) : Prop :=
  st.cursor = .running ∨ (st.cursor = .reset ∧
    (c.strict → ∀ i, 1 ≤ i → i ≤ st.params → expected c.params i = some (st.bindings i)))

theorem step_wp (ha : At c h b (Steppable c) s) :
    (sqlite3Step g h).wp (fun rc => At c h b fun st => rc = ROW → st.cursor = .running) (Working c h b) s := by
  obtain ⟨hw, hst⟩ := ha
  have hcurrent := hw.good.current
  -- The notes: either the statement was running, or this begins an execution that sees what it should.
  generalize hn : noteStart s.time h { s with time := s.time + 1, log := .used h :: s.log } = s₁
  have hstore : s₁.store = s.store := by rw [← hn]; unfold noteStart; split <;> rfl
  have hw₁ : Working c h b s₁ := by
    rw [← hn]
    unfold noteStart
    split
    · exact hw.pass (.inr rfl)
    · next hcur =>
      refine hw.touch ⟨.inr rfl, rfl, rfl, rfl, rfl, fun _ _ => rfl, rfl, rfl⟩ (fun _ => rfl) fun e he => ?_
      rcases List.mem_cons.mp he with rfl | he
      · obtain ⟨hreset, hseen⟩ := hst.resolve_left hcur
        exact .inr ⟨hreset, fun hs => by rw [← hcurrent] at hseen; exact hseen hs⟩
      · exact .inl he
  have hset : ∀ (f : Stmt → Stmt) (shown : List SqliteRow), (f (s₁.store h)).sql = (s₁.store h).sql →
      (f (s₁.store h)).params = (s₁.store h).params → (f (s₁.store h)).bindings = (s₁.store h).bindings →
      Working c h b { s₁ with store := Function.update s₁.store h (f (s₁.store h)), shown } :=
    fun f shown h1 h2 h3 => hw₁.touch (touches_set (.inl rfl) h1 h2) (fun _ => h3) fun e he => .inl he
  have hre : ∀ t, (recompile g t (s₁.store h)).sql = (s₁.store h).sql ∧
      (recompile g t (s₁.store h)).params = (s₁.store h).params ∧
      (recompile g t (s₁.store h)).bindings = (s₁.store h).bindings := fun t => by
    unfold recompile
    split <;> exact ⟨rfl, rfl, rfl⟩
  simp only [sqlite3Step, Prog.wp_bind, use_wp, tick_wp, Prog.wp_modify, setStmt_wp]
  rw [hn]
  split
  · simp only [Prog.wp_bind, setStmt_wp, Prog.wp_throw, Function.update_self, Function.update_idem]
    exact hset (fun st => { recompile g s.time st with cursor := .ended, row := [] }) s₁.shown (hre _).1 (hre _).2.1
      (hre _).2.2
  · split
    · simp only [Prog.wp_bind, setStmt_wp, Prog.wp_modify, Prog.wp_pure, Function.update_self, Function.update_idem]
      refine ⟨hset (fun st => { recompile g s.time st with
        cursor := .running, row := (List.range (recompile g s.time st).names.length).map (g.cell s.time) }) _
        (hre _).1 (hre _).2.1 (hre _).2.2, fun _ => ?_⟩
      show (Function.update s₁.store h _ h).cursor = _
      rw [Function.update_self]
    · next hrow =>
      simp only [Prog.wp_bind, setStmt_wp, Prog.wp_pure, Function.update_self, Function.update_idem]
      refine ⟨hset (fun st => { recompile g s.time st with cursor := .ended, row := [] }) s₁.shown (hre _).1
        (hre _).2.1 (hre _).2.2, fun h => absurd h hrow⟩

/-- A reset statement whose parameters the call can bind: all were NULL, or the call binds them all. -/
def Ready (c : Ctx) (st : Stmt) : Prop :=
  st.cursor = .reset ∧ (c.strict → (st.bindings = fun _ => .null) ∨ st.params ≤ c.params.length)

theorem bindAll_wp (ha : At c h b (Ready c) s) :
    (bindAll g h c.params).wp (fun _ => At c h b (Steppable c)) (Working c h b) s := by
  obtain ⟨hw, hcur, hfull⟩ := ha
  have hsteppable : (∀ p ∈ c.params, p.value.isSome) → ∀ st : Stmt,
      Bound (s.store h).params (overlay (s.store h).bindings 1 c.params) st → Steppable c st :=
    fun hvalues st ⟨hc, hp, hB⟩ => by
      refine .inr ⟨hc, fun hs i hi hin => ?_⟩
      rw [hB, overlay_get hi, expected]
      cases hg : c.params[i - 1]? with
      | some p =>
        obtain ⟨v, hv⟩ := Option.isSome_iff_exists.mp (hvalues p (List.mem_of_getElem? hg))
        simp only [hv, Option.getD_some]
      | none =>
        rcases hfull hs with h | h
        · rw [h]
        · have := List.getElem?_eq_none_iff.mp hg
          omega
  have hstart : At c h b (Bound (s.store h).params (s.store h).bindings) s := ⟨hw, hcur, rfl, rfl⟩
  by_cases hne : c.params = []
  · rw [hne] at hsteppable ⊢
    exact ⟨hw, hsteppable nofun _ ⟨hcur, rfl, rfl⟩⟩
  · exact Prog.wp_mono (bindFrom_wp hne hstart) (fun _ s' hs' => ⟨hs'.1.1, hsteppable hs'.2 _ hs'.1.2⟩)
      fun _ hs' => hs'

theorem scalar_wp (ha : At c h b (Ready c) s) :
    (scalar g h c.params).wp (fun _ => Working c h b) (Working c h b) s := by
  refine Prog.wp_then (bindAll_wp ha) fun _ s₁ h₁ => Prog.wp_then (step_wp h₁) fun rc s₂ h₂ => ?_
  split
  · refine Prog.wp_then (read_wp h₂) fun _ s₃ h₃ => Prog.wp_then (read_wp h₃) fun _ s₄ h₄ => ?_
    exact h₄.1
  · split
    · exact h₂.1
    · exact h₂.1

theorem listFrom_wp {α : Type} {f : Nat → Op α} {P : Stmt → Prop}
    (hf : ∀ i s, At c h b P s → (f i).wp (fun _ => At c h b P) (Working c h b) s) :
    ∀ {n i : Nat} {s : State}, At c h b P s → (Prog.listFrom f i n).wp (fun _ => At c h b P) (Working c h b) s
  | 0, _, _, ha => ha
  | n + 1, i, s, ha => by
    refine Prog.wp_then (hf i s ha) fun _ s₁ h₁ => Prog.wp_then (listFrom_wp hf h₁) fun _ s₂ h₂ => ?_
    exact h₂

theorem decode_wp {P : Stmt → Prop} (ha : At c h b P s) :
    (decode g h i).wp (fun _ => At c h b P) (Working c h b) s := by
  refine Prog.wp_then (read_wp ha) fun ty s₁ h₁ => ?_
  split <;> first | exact h₁ | exact Prog.wp_then (read_wp h₁) fun _ _ h₂ => h₂

theorem turn_wp {cols : List String} (ha : At c h b (Steppable c) s) :
    (turn g h cols).wp (fun r => At c h b fun st => (∃ row, r = .row row) → Steppable c st) (Working c h b) s := by
  refine Prog.wp_then (step_wp ha) fun rc s₁ h₁ => ?_
  split
  · next hrow =>
    have hrun : At c h b (Steppable c) s₁ := ⟨h₁.1, .inl (h₁.2 hrow)⟩
    refine Prog.wp_then (listFrom_wp (fun _ _ hs => decode_wp hs) hrun) fun _ s₂ h₂ => ?_
    exact ⟨h₂.1, fun _ => h₂.2⟩
  · split
    · exact ⟨h₁.1, nofun⟩
    · split
      · exact ⟨h₁.1, nofun⟩
      · exact h₁.1

theorem turns_wp {cols : List String} : ∀ {room : Nat} {rows : List SqliteRow} {s : State},
    At c h b (Steppable c) s → (turns g h cols room rows).wp (fun _ => Working c h b) (Working c h b) s := by
  intro room
  induction room with
  | zero =>
    intro rows s ha
    unfold turns
    refine Prog.wp_then (turn_wp ha) fun r s₁ h₁ => ?_
    cases r <;> exact h₁.1
  | succ room ih =>
    intro rows s ha
    unfold turns
    refine Prog.wp_then (turn_wp ha) fun r s₁ h₁ => ?_
    cases r with
    | row r => exact ih ⟨h₁.1, h₁.2 ⟨r, rfl⟩⟩
    | done => exact h₁.1
    | busy => exact h₁.1

theorem bindAndDecode_wp (ha : At c h b (Ready c) s) :
    (bindAndDecode g h c.params).wp (fun _ => Working c h b) (Working c h b) s := by
  refine Prog.wp_then (bindAll_wp ha) fun _ s₁ h₁ => Prog.wp_then (read_wp h₁) fun n s₂ h₂ => ?_
  exact Prog.wp_then (listFrom_wp (fun _ _ hs => read_wp hs) h₂) fun _ s₃ h₃ => turns_wp h₃

/-! ## The `finally` blocks -/

/-- The statement is put back as it should be. -/
theorem Working.calm (hw : Working c h b s) {s' : State} {x : Stmt} (ht : Touches h x s s')
    (hstarts : s'.starts = s.starts) (hreset : x.cursor = .reset)
    (hidle : h ∉ s.user → x.Idle) : Calm c s' := by
  -- Once more a call with the statement in hand; behind it the statement is as the others are.
  have hg := hw.good
  have hg' := hg.touch hw.there ht fun e he => .inl (hstarts ▸ he)
  refine { hg' with idle := fun e he _ => ?_, still := fun k hk _ => ?_ }
  · by_cases heh : e.2 = h
    · rw [heh, ht.self]
      rw [ht.cache] at he
      exact hidle (heh ▸ hg.not_user he)
    · exact hg'.idle e he fun hb => heh (Option.some.inj hb).symm
  · by_cases hkh : k = h
    · rw [hkh, ht.self]
      exact hreset
    · exact hg'.still k hk fun hb => hkh (Option.some.inj hb).symm

theorem resetAndClear_calm (hw : Working c h (fun _ => .null) s) :
    (resetAndClear h c.params).wp (fun _ => Calm c) (Calm c) s := by
  simp only [resetAndClear, sqlite3Reset, Prog.wp_bind, use_wp, setStmt_wp]
  by_cases hne : c.params = []
  · rw [hne]
    have hidle : Stmt.Idle { s.store h with cursor := .reset, row := [] } := ⟨rfl, hw.kept hne⟩
    exact hw.calm (touches_set (.inr rfl) rfl rfl) rfl rfl fun _ => hidle
  · rw [if_neg (by simpa using hne)]
    have hw' : Working c h (fun _ => .null) { s with
        log := .used h :: s.log
        store := Function.update s.store h { s.store h with cursor := .reset, row := [] } } :=
      hw.touch (touches_set (.inr rfl) rfl rfl) (fun _ => rfl) fun _ he => .inl he
    simp only [sqlite3ClearBindings, Prog.wp_bind, use_wp, setStmt_wp]
    have self := Function.update_self h { s.store h with cursor := Cursor.reset, row := [] } s.store
    refine hw'.calm (touches_set (.inr rfl) rfl rfl) rfl ?_ fun _ => ⟨?_, rfl⟩
    · show (Function.update s.store h _ h).cursor = _
      rw [self]
    · show (Function.update s.store h _ h).cursor = _
      rw [self]

theorem reset_calm (hw : Working c h b s) (hu : h ∈ s.user) : (sqlite3Reset h).wp (fun _ => Calm c) (Calm c) s := by
  simp only [sqlite3Reset, Prog.wp_bind, use_wp, setStmt_wp]
  exact hw.calm (touches_set (.inr rfl) rfl rfl) rfl rfl fun hno => absurd hu hno

/-- A call takes a statement in hand. -/
theorem Calm.take (hc : Calm c s) (hl : h ∈ live s.log) (hb : (s.store h).bindings = b) : Working c h b s where
  good := { hc with idle := fun e he _ => hc.idle e he nofun, still := fun k hk _ => hc.still k hk nofun }
  there := hl
  kept _ := hb

theorem cached_calm {α : Type} {body : Op α} {sql : String} (hc : Calm c s) (hm : (sql, h) ∈ s.cache)
    (hbody : ∀ s, At c h (fun _ => .null) (Ready c) s →
      body.wp (fun _ => Working c h fun _ => .null) (Working c h fun _ => .null) s) :
    (Prog.tryFinally body (resetAndClear h c.params)).wp (fun _ => Calm c) (Calm c) s := by
  obtain ⟨hreset, hnull⟩ := hc.idle (sql, h) hm nofun
  have hw := hc.take (hc.live_of_cached hm) hnull
  rw [Prog.wp_tryFinally]
  exact Prog.wp_mono (hbody s ⟨hw, hreset, fun _ => .inl hnull⟩) (fun _ _ hw => resetAndClear_calm hw)
    fun _ hw => resetAndClear_calm hw

theorem user_calm {α : Type} {body : Op α} {n : Nat} (hc : Calm c s) (hn : (h, n) ∈ c.sizes)
    (hfull : c.strict → n ≤ c.params.length)
    (hbody : ∀ s b, At c h b (Ready c) s → body.wp (fun _ => Working c h b) (Working c h b) s) :
    (Prog.tryFinally body (sqlite3Reset h)).wp (fun _ => Calm c) (Calm c) s := by
  obtain ⟨hu, hp⟩ := hc.sizes (h, n) hn
  have hw := hc.take (hc.live_of_user hu) rfl
  have hready : Ready c (s.store h) := ⟨hc.still h hu nofun, fun hs => .inr (le_of_eq_of_le hp (hfull hs))⟩
  rw [Prog.wp_tryFinally]
  exact Prog.wp_mono (hbody s _ ⟨hw, hready⟩) (fun _ _ hw => reset_calm hw (hw.good.sizes (h, n) hn).1)
    fun _ hw => reset_calm hw (hw.good.sizes (h, n) hn).1

/-! ## The session's functions -/

theorem sleep_calm (hc : Calm c s) : (sleep g).wp (fun _ => Calm c) (Calm c) s := by
  simp only [sleep, call, Prog.wp_bind, tick_wp, Prog.wp_throwIf, Prog.wp_pure]
  have hc' : Calm c { s with time := s.time + 1 } := { hc with }
  split <;> exact hc'

theorem cacheGet_wp {sql : String} {Q : Option Nat → State → Prop} {E : State → Prop} :
    (cacheGet sql).wp Q E s ↔ match s.cache.find? fun e => e.1 = sql with
      | none => Q none s
      | some e => Q (some e.2) { s with cache := s.cache.erase e ++ [e] } := by
  simp only [cacheGet, Prog.wp]
  cases s.cache.find? fun e => e.1 = sql <;> rfl

theorem cacheGet_calm {sql : String} (hc : Calm c s) :
    (cacheGet sql).wp (fun r s' => Calm c s' ∧ ∀ h, r = some h → (sql, h) ∈ s'.cache) (Calm c) s := by
  rw [cacheGet_wp]
  split
  · exact ⟨hc, nofun⟩
  · next e hfind =>
    have he : e ∈ s.cache := List.mem_of_find?_eq_some hfind
    have hkey : e.1 = sql := of_decide_eq_true (List.find?_some hfind :)
    have hperm : (s.cache.erase e ++ [e]).Perm s.cache :=
      (List.perm_append_singleton e (s.cache.erase e)).trans (List.perm_cons_erase he).symm
    have hmem : ∀ e', e' ∈ s.cache.erase e ++ [e] ↔ e' ∈ s.cache := fun e' => hperm.mem_iff
    refine ⟨⟨⟨hc.sound, hc.nodup, ?_⟩, ?_, fun e' he' => hc.keys e' ((hmem e').mp he'),
      fun e' he' => hc.idle e' ((hmem e').mp he'), hc.still, hc.sizes, hc.starts, hc.current⟩, fun h hh => ?_⟩
    · exact ((hperm.map Prod.snd).append_right s.user).trans hc.owned
    · rw [show (s.cache.erase e ++ [e]).length = s.cache.length from hperm.length_eq]
      exact hc.small
    · cases hh
      subst hkey
      exact (hmem e).mpr he

/-- A fresh handle that nobody keeps yet. -/
def Fresh (c : Ctx) (sql : String) (h : Nat) (s : State) : Prop :=
  Good c none [h] s ∧ (s.store h).Idle ∧ (s.store h).sql = sql

/-- Behind a prepare that made the statement `h`. -/
def withNew (g : Guest) (sql : String) (h : Nat) (s : State) : State :=
  { s with
    time := s.time + 1
    store := Function.update s.store h { sql, params := g.params sql, names := g.columns s.time sql }
    log := .prepared h :: s.log }

theorem prepare_wp {sql : String} {Q : Int × Nat → State → Prop} {E : State → Prop}
    (hthrow : E { s with time := s.time + 1 }) (hnone : ∀ rc, Q (rc, 0) { s with time := s.time + 1 })
    (hnew : ∀ h, h ≠ 0 → h ∉ live s.log → Q (0, h) (withNew g sql h s)) : (sqlite3PrepareV2 g sql).wp Q E s := by
  simp only [sqlite3PrepareV2, call, Prog.wp_bind, tick_wp, Prog.wp_throwIf, Prog.wp_pure]
  split
  · exact hthrow
  · split
    · exact hnone _
    · split
      · exact hnone _
      · exact hnew _ (g.alloc_ne _ _) (g.alloc_fresh _ _)

theorem prepare_calm {sql : String} (hc : Calm c s) :
    (sqlite3PrepareV2 g sql).wp (fun r s' => (r.2 = 0 ∧ Calm c s') ∨ (r.1 = 0 ∧ r.2 ≠ 0 ∧ Fresh c sql r.2 s'))
      (Calm c) s := by
  have hc' : Calm c { s with time := s.time + 1 } := { hc with }
  refine prepare_wp hc' (fun _ => .inl ⟨rfl, hc'⟩) fun h hh hnew => .inr ⟨rfl, hh, ?_⟩
  -- The new handle is none of those in use, so their statements stay.
  have hother : ∀ k, k ∈ live s.log → (withNew g sql h s).store k = s.store k :=
    fun k hk => Function.update_of_ne (fun hkh => hnew (by rw [← hkh]; exact hk)) ..
  have hself : (withNew g sql h s).store h = { sql, params := g.params sql, names := g.columns s.time sql } :=
    Function.update_self ..
  refine ⟨⟨hc.prepared hnew rfl rfl rfl, hc.small, fun e he => ?_, fun e he hb => ?_, fun k hk hb => ?_,
    fun y hy => ?_, hc.starts, hc.current⟩, ?_, ?_⟩
  · rw [hother e.2 (hc.live_of_cached he)]
    exact hc.keys e he
  · rw [hother e.2 (hc.live_of_cached he)]
    exact hc.idle e he hb
  · rw [hother k (hc.live_of_user hk)]
    exact hc.still k hk hb
  · obtain ⟨hu, hp⟩ := hc.sizes y hy
    refine ⟨hu, ?_⟩
    rw [hother y.1 (hc.live_of_user hu)]
    exact hp
  · rw [hself]
    exact ⟨rfl, rfl⟩
  · rw [hself]

theorem cachePut_calm {sql : String} (hf : Fresh c sql h s) :
    (cachePut sql h).wp (fun _ s' => Calm c s' ∧ (sql, h) ∈ s'.cache) (Calm c) s := by
  obtain ⟨hg, hidle, hsql⟩ := hf
  have hmem : ∀ e ∈ s.cache ++ [(sql, h)], e ∈ s.cache ∨ e = (sql, h) := fun e he => by
    simpa using List.mem_append.mp he
  have hkeys : ∀ e ∈ s.cache ++ [(sql, h)], (s.store e.2).sql = e.1 := fun e he => by
    rcases hmem e he with he | rfl
    · exact hg.keys e he
    · exact hsql
  have hall : ∀ e ∈ s.cache ++ [(sql, h)], (s.store e.2).Idle := fun e he => by
    rcases hmem e he with he | rfl
    · exact hg.idle e he nofun
    · exact hidle
  have howned : Owned [] { s with cache := s.cache ++ [(sql, h)] } := hg.cached
  simp only [cachePut, Prog.wp_bind, Prog.wp_modify, Prog.wp_get]
  split
  · next hnil => exact absurd hnil (by simp)
  · next eldest rest hcons =>
    have hcons : s.cache ++ [(sql, h)] = eldest :: rest := hcons
    rw [hcons] at hkeys hall
    have hlen : s.cache.length + 1 = rest.length + 1 := by
      have := congrArg List.length hcons
      simpa using this
    have hlast : (sql, h) ∈ eldest :: rest := hcons ▸ List.mem_append_right _ List.mem_cons_self
    split
    · next hfull =>
      -- The eldest goes: it is another one than the entry just put there.
      simp only [sqlite3Finalize, Prog.wp_bind, Prog.wp_modify]
      have hne : (sql, h) ≠ eldest := fun heq => by
        cases hcache : s.cache with
        | nil =>
          have hnone : rest.length = 0 := by rw [hcache] at hlen; simpa using hlen.symm
          rw [List.length_cons, hnone] at hfull
          exact absurd hfull (by decide)
        | cons e es =>
          rw [hcache] at hcons
          have he : e = eldest := (List.cons.inj hcons).1
          have hmem : e ∈ s.cache := by rw [hcache]; exact List.mem_cons_self
          refine hg.not_kept (List.mem_append_left _ (List.mem_map.mpr ⟨e, hmem, ?_⟩))
          rw [he, ← heq]
      refine ⟨⟨howned.evicted hcons, ?_, fun e he => hkeys e (List.mem_cons_of_mem _ he),
        fun e he _ => hall e (List.mem_cons_of_mem _ he), hg.still, hg.sizes, hg.starts, hg.current⟩,
        (List.mem_cons.mp hlast).resolve_left hne⟩
      have := hg.small
      show rest.length ≤ _
      omega
    · next hroom =>
      refine ⟨⟨howned, ?_, fun e he => hkeys e (hcons ▸ he), fun e he _ => hall e (hcons ▸ he), hg.still, hg.sizes,
        hg.starts, hg.current⟩, hcons ▸ hlast⟩
      show (s.cache ++ [(sql, h)]).length ≤ _
      rw [hcons]
      omega

/-- `h` stays the user's, so the call may be looked at with that known. -/
theorem Calm.own (hc : Calm c s) (hu : h ∈ s.user) :
    Calm { c with sizes := (h, (s.store h).params) :: c.sizes } s := by
  refine { hc with sizes := fun x hx => ?_ }
  rcases List.mem_cons.mp hx with rfl | hx
  · exact ⟨hu, rfl⟩
  · exact hc.sizes x hx

theorem Calm.forget {x : Nat × Nat} (hc : Calm { c with sizes := x :: c.sizes } s) : Calm c s :=
  { hc with sizes := fun y hy => hc.sizes y (List.mem_cons_of_mem x hy) }

theorem exec_calm {sql : String} (hc : Calm c s) : (exec g sql).wp (fun _ => Calm c) (Calm c) s := by
  simp only [exec, call, Prog.wp_bind, tick_wp, Prog.wp_throwIf, Prog.wp_pure]
  have hc' : Calm c { s with time := s.time + 1 } := { hc with }
  split <;> exact hc'

section
variable {sql : String} {params : List Param} (hp : c.params = params)
include hp

theorem query_calm (hc : Calm c s) : (query g sql params).wp (fun _ => Calm c) (Calm c) s := by
  subst hp
  refine Prog.wp_then (cacheGet_calm hc) fun r s₁ h₁ => ?_
  cases r with
  | some h => exact cached_calm h₁.1 (h₁.2 h rfl) fun s hs => scalar_wp hs
  | none =>
    refine Prog.wp_then (prepare_calm h₁.1) fun r s₂ h₂ => ?_
    obtain ⟨prc, h⟩ := r
    dsimp only at h₂ ⊢
    split
    · next hno =>
      rcases h₂ with ⟨-, h₂⟩ | ⟨hrc, hh, -⟩
      · exact h₂
      · exact absurd hno (by simp [hrc, hh])
    · next hyes =>
      rcases h₂ with ⟨hh, -⟩ | ⟨-, -, hf⟩
      · exact absurd (.inr hh) hyes
      · exact Prog.wp_then (cachePut_calm hf) fun _ s₃ h₃ => cached_calm h₃.1 h₃.2 fun s hs => scalar_wp hs

theorem run_calm {isQuery : Bool} (hc : Calm c s) : (run g sql isQuery params).wp (fun _ => Calm c) (Calm c) s := by
  refine Prog.wp_retry (fun s hs => sleep_calm hs) (fun s hs => ?_) (fun _ hs => hs) ATTEMPTS s hc
  refine Prog.wp_then (R := fun _ => Calm c) ?_ fun r s₁ h₁ => ?_
  · simp only [runOnce]
    split
    · exact query_calm hp hs
    · exact Prog.wp_then (exec_calm hs) fun _ _ h => h
  · rw [Prog.wp_pure]
    split <;> exact h₁

omit hp in
/-- The statement of a text, out of the cache or prepared, with what its caller then does with it. -/
theorem queryRowsOnce_wp {Q : Option (List SqliteRow) → State → Prop} {E : State → Prop} (hc : Calm c s)
    (hE : ∀ s, Calm c s → E s) (hnone : ∀ s, Calm c s → Q none s)
    (hrows : ∀ h s, Calm c s → (sql, h) ∈ s.cache →
      (Prog.tryFinally (bindAndDecode g h params) (resetAndClear h params)).wp Q E s) :
    (queryRowsOnce g sql params).wp Q E s := by
  refine Prog.wp_then (Prog.wp_mono (cacheGet_calm hc) (fun _ _ h => h) hE) fun r s₁ h₁ => ?_
  cases r with
  | some h => exact hrows h s₁ h₁.1 (h₁.2 h rfl)
  | none =>
    refine Prog.wp_then (Prog.wp_mono (prepare_calm h₁.1) (fun _ _ h => h) hE) fun r s₂ h₂ => ?_
    obtain ⟨prc, h⟩ := r
    dsimp only at h₂ ⊢
    split
    · next htrans =>
      rcases h₂ with ⟨-, h₂⟩ | ⟨hrc, -⟩
      · exact hnone s₂ h₂
      · rw [hrc] at htrans; cases htrans
    · simp only [Prog.wp_bind, Prog.wp_throwIf]
      split
      · next hno =>
        rcases h₂ with ⟨-, h₂⟩ | ⟨hrc, hh, -⟩
        · exact hE s₂ h₂
        · exact absurd hno (by simp [hrc, hh])
      · next hyes =>
        rcases h₂ with ⟨hh, -⟩ | ⟨-, -, hf⟩
        · exact absurd hyes (by simp [hh])
        · rw [← Prog.wp_bind]
          refine Prog.wp_then (Prog.wp_mono (cachePut_calm hf) (fun _ _ h => h) hE) fun _ s₃ h₃ => ?_
          exact hrows h s₃ h₃.1 h₃.2

theorem queryRowsOnce_calm (hc : Calm c s) : (queryRowsOnce g sql params).wp (fun _ => Calm c) (Calm c) s := by
  subst hp
  exact queryRowsOnce_wp hc (fun _ h => h) (fun _ h => h) fun h s hs hm =>
    cached_calm hs hm fun s hs => bindAndDecode_wp hs

theorem queryRows_calm (hc : Calm c s) : (queryRows g sql params).wp (fun _ => Calm c) (Calm c) s := by
  refine Prog.wp_retry (fun s hs => sleep_calm hs) (fun s hs => ?_) (fun _ hs => hs) ATTEMPTS s hc
  exact Prog.wp_mono (queryRowsOnce_calm hp hs) (fun r s' hs' => by cases r <;> exact hs') fun _ hs' => hs'

omit hp in
/-- Attempts with a statement of the user, which it has to be. -/
theorem userRetry_calm {α : Type} {body : Op (Option α)} (hc : Calm c s)
    (hbody : ∀ s', h ∈ s.user → Calm { c with sizes := (h, (s.store h).params) :: c.sizes } s' →
      body.wp (fun _ => Calm { c with sizes := (h, (s.store h).params) :: c.sizes })
        (Calm { c with sizes := (h, (s.store h).params) :: c.sizes }) s') :
    Prog.wp (do
      Prog.throwIf (h ∉ (← Prog.get).user)
      Prog.retry (sleep g) body ATTEMPTS) (fun _ => Calm c) (Calm c) s := by
  simp only [Prog.wp_bind, Prog.wp_get, Prog.wp_throwIf]
  split
  · exact hc
  · next hu =>
    have hu : h ∈ s.user := by simpa using hu
    have hretry : (Prog.retry (sleep g) body ATTEMPTS).wp
        (fun _ => Calm { c with sizes := (h, (s.store h).params) :: c.sizes })
        (Calm { c with sizes := (h, (s.store h).params) :: c.sizes }) s := by
      refine Prog.wp_retry (fun s hs => sleep_calm hs) (fun s' hs' => ?_) (fun _ hs => hs) ATTEMPTS s (hc.own hu)
      exact Prog.wp_mono (hbody s' hu hs') (fun r _ h => by cases r <;> exact h) fun _ h => h
    exact Prog.wp_mono hretry (fun _ _ h => h.forget) fun _ h => h.forget

theorem runUser_calm (hc : Calm c s) (hfull : c.strict → h ∈ s.user → (s.store h).params ≤ params.length) :
    (runUser g h params).wp (fun _ => Calm c) (Calm c) s := by
  subst hp
  refine userRetry_calm hc fun s' hu hs' => ?_
  refine Prog.wp_then (user_calm hs' List.mem_cons_self (fun hs => hfull hs hu) fun s b hs => scalar_wp hs)
    fun r s₁ h₁ => ?_
  exact h₁

theorem runUserRows_calm (hc : Calm c s) (hfull : c.strict → h ∈ s.user → (s.store h).params ≤ params.length) :
    (runUserRows g h params).wp (fun _ => Calm c) (Calm c) s := by
  subst hp
  refine userRetry_calm hc fun s' hu hs' => ?_
  exact user_calm hs' List.mem_cons_self (fun hs => hfull hs hu) fun s b hs => bindAndDecode_wp hs

end

/-- The new statement is none of those known before. -/
theorem prepareUser_calm {sql : String} (hc : Calm c s) :
    (prepareUser g sql).wp
      (fun r s' => Calm { c with sizes := (r.1, r.2) :: c.sizes } s' ∧ ∀ x ∈ c.sizes, x.1 ≠ r.1) (Calm c) s := by
  refine Prog.wp_then (prepare_calm hc) fun r s₁ h₁ => ?_
  obtain ⟨prc, h⟩ := r
  dsimp only at h₁ ⊢
  simp only [Prog.wp_bind, Prog.wp_throwIf, Prog.wp_modify]
  rcases h₁ with ⟨rfl, h₁⟩ | ⟨rfl, hh, hg, hidle, hsql⟩
  · split
    · exact h₁
    · exact h₁
  · rw [if_neg (by decide), if_neg (by simpa using hh)]
    have hc₁ : Calm c { s₁ with user := s₁.user ++ [h] } :=
      { hg.keep, hg with
        still := fun k hk hb => by
          rcases List.mem_append.mp hk with hk | hk
          · exact hg.still k hk hb
          · rw [List.mem_singleton.mp hk]; exact hidle.1
        sizes := fun x hx => ⟨List.mem_append_left _ (hg.sizes x hx).1, (hg.sizes x hx).2⟩ }
    have hu : h ∈ s₁.user ++ [h] := List.mem_append_right _ List.mem_cons_self
    simp only [sqlite3BindParameterCount, read, call, Prog.wp_bind, use_wp, tick_wp, Prog.wp_throwIf, Prog.wp_get,
      Prog.wp_pure]
    have hc₂ : Calm c { s₁ with user := s₁.user ++ [h], time := s₁.time + 1, log := .used h :: s₁.log } :=
      { hc₁ with sound := ⟨hc₁.live_of_user hu, hc₁.sound⟩ }
    have hnew : ∀ x ∈ c.sizes, x.1 ≠ h := fun x hx heq => by
      refine hg.not_kept (List.mem_append_right _ ?_)
      rw [← heq]
      exact (hg.sizes x hx).1
    split
    · exact hc₂
    · exact ⟨hc₂.own hu, hnew⟩

theorem finalizeUser_calm (hc : Calm c s) :
    (finalizeUser h).wp (fun _ => Calm { c with sizes := c.sizes.filter fun x => x.1 ≠ h })
      (Calm { c with sizes := c.sizes.filter fun x => x.1 ≠ h }) s := by
  have hfilter : ∀ x ∈ c.sizes.filter (fun x => x.1 ≠ h), x ∈ c.sizes ∧ x.1 ≠ h := fun x hx => by
    simpa using List.mem_filter.mp hx
  simp only [finalizeUser, Prog.wp_bind, Prog.wp_get]
  split
  · next hu =>
    simp only [sqlite3Finalize, Prog.wp_bind, Prog.wp_modify]
    refine ⟨hc.finalized hu, hc.small, hc.keys, hc.idle, fun k hk => hc.still k (List.mem_of_mem_erase hk),
      fun x hx => ?_, hc.starts, hc.current⟩
    obtain ⟨hx, hxh⟩ := hfilter x hx
    obtain ⟨hu, hp⟩ := hc.sizes x hx
    exact ⟨(List.mem_erase_of_ne hxh).mpr hu, hp⟩
  · exact { hc with sizes := fun x hx => hc.sizes x (hfilter x hx).1 }

end Statements

end Sqlol

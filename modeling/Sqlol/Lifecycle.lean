/-
The life of a session's statements: any calls, one after the other, then one
`close`.

After every call the cache is small, and the cache and the user hold handles
in use, each once; nothing is done with a handle that is not in use; and behind
`close` every statement ever prepared is finalized once. An address may come
back for a later statement, so "once" is counted by the address: it was
prepared as often as finalized, and the two take turns (`Sound`).
-/
import Sqlol.Runs
import Sqlol.StatementFacts

namespace Sqlol

namespace Statements

/-- A call on the session. -/
inductive Call where
  | run (sql : String) (isQuery : Bool) (params : List Param)
  | query (sql : String) (params : List Param)
  | queryRows (sql : String) (params : List Param)
  | prepareUser (sql : String)
  | runUser (h : Nat) (params : List Param)
  | runUserRows (h : Nat) (params : List Param)
  | finalizeUser (h : Nat)

/-- The parameters of a call. -/
def Call.params : Call → List Param
  | .run _ _ params | .query _ params | .queryRows _ params | .runUser _ params | .runUserRows _ params => params
  | .prepareUser _ | .finalizeUser _ => []

/-- What it returns is not looked at here. -/
def Call.exec (g : Guest) : Call → Op Unit
  | .run sql isQuery params => do
    let _ ← Statements.run g sql isQuery params
    pure ()
  | .query sql params => do
    let _ ← Statements.query g sql params
    pure ()
  | .queryRows sql params => do
    let _ ← Statements.queryRows g sql params
    pure ()
  | .prepareUser sql => do
    let _ ← Statements.prepareUser g sql
    pure ()
  | .runUser h params => do
    let _ ← Statements.runUser g h params
    pure ()
  | .runUserRows h params => do
    let _ ← Statements.runUserRows g h params
    pure ()
  | .finalizeUser h => Statements.finalizeUser h

/-- One call, to its end or to its exception. -/
def step (g : Guest) (s : State) (call : Call) : Option State :=
  some (call.exec g { s with current := call.params }).2

/-- The cache and the user's statements, between two calls. -/
structure Lawful (s : State) : Prop where
  small : s.cache.length ≤ Session.STMT_CACHE
  distinct : (s.cache.map Prod.snd ++ s.user).Nodup
  live : ∀ h ∈ s.cache.map Prod.snd ++ s.user, h ∈ live s.log
  sound : Sound s.log

/-- Nothing asked of the caller. -/
def anyCaller (params : List Param) : Ctx := ⟨False, [], params⟩

variable {g : Guest} {s : State} {h : Nat}

theorem Calm.lawful {c : Ctx} (hc : Calm c s) : Lawful s :=
  ⟨hc.small, hc.owned.nodup_iff.mpr hc.nodup, fun _ hm => hc.owned.mem_iff.mp hm, hc.sound⟩

/-- The next call has its own parameters. -/
theorem Calm.next {params : List Param} (hc : Calm (anyCaller params) s) (params' : List Param) :
    Calm (anyCaller params') { s with current := params' } :=
  { hc with sizes := nofun, starts := fun e he => ⟨(hc.starts e he).1, nofun⟩, current := rfl }

theorem calm_empty {strict : Prop} : Calm ⟨strict, [], []⟩ {} :=
  ⟨⟨trivial, .nil, .nil⟩, Nat.zero_le _, nofun, nofun, nofun, nofun, nofun, rfl⟩

theorem Call.exec_calm (call : Call) (hc : Calm (anyCaller call.params) s) :
    (call.exec g).wp (fun _ => Calm (anyCaller call.params)) (Calm (anyCaller call.params)) s := by
  cases call with
  | run sql isQuery params => exact Prog.wp_then (run_calm rfl hc) fun _ _ h => h
  | query sql params => exact Prog.wp_then (query_calm rfl hc) fun _ _ h => h
  | queryRows sql params => exact Prog.wp_then (queryRows_calm rfl hc) fun _ _ h => h
  | prepareUser sql => exact Prog.wp_then (prepareUser_calm hc) fun _ _ h => h.1.forget
  | runUser k params => exact Prog.wp_then (runUser_calm rfl hc nofun) fun _ _ h => h
  | runUserRows k params => exact Prog.wp_then (runUserRows_calm rfl hc nofun) fun _ _ h => h
  | finalizeUser k => exact finalizeUser_calm hc

/-- Calm, whatever the last call was. -/
def Settled (s : State) : Prop := ∃ params, Calm (anyCaller params) s

theorem step_settled {call : Call} {s' : State} (hs : Settled s) (hstep : step g s call = some s') : Settled s' := by
  obtain ⟨params, hc⟩ := hs
  cases hstep
  exact ⟨call.params, Prog.wp_state (call.exec_calm (hc.next _))⟩

theorem run_settled {calls : List Call} (hs : Settled s) :
    ∃ s', Sqlol.run (step g) s calls = some s' ∧ Settled s' := by
  induction calls generalizing s with
  | nil => exact ⟨s, rfl, hs⟩
  | cons call calls ih =>
    have hstep : Settled (call.exec g { s with current := call.params }).2 := step_settled hs rfl
    exact ih hstep

/-! ## The end -/

/-- The handles given are finalized, the `rest` stays. -/
theorem finalizeAll_wp {rest : List Nat} : ∀ {hs : List Nat} {s : State}, (hs ++ rest).Perm (live s.log) →
    Sound s.log → (finalizeAll hs).wp
      (fun _ s' => ∃ log, s' = { s with log } ∧ rest.Perm (live log) ∧ Sound log) (fun _ => False) s
  | [], s, hp, hs => ⟨s.log, rfl, hp, hs⟩
  | h :: hs, s, hp, hsound => by
    have hlive : h ∈ live s.log := hp.mem_iff.mp List.mem_cons_self
    have hrest : (hs ++ rest).Perm ((live s.log).erase h) := by
      have := hp.erase h
      rwa [List.cons_append, List.erase_cons_head] at this
    simp only [finalizeAll, sqlite3Finalize, Prog.wp_bind, Prog.wp_modify]
    exact finalizeAll_wp (s := { s with log := .finalized h :: s.log }) hrest ⟨hlive, hsound⟩

theorem close_wp {c : Ctx} (hc : Calm c s) :
    close.wp (fun _ s' => ∃ log, s' = { s with log, cache := [], user := [] } ∧ live log = [] ∧ Sound log)
      (fun _ => False) s := by
  have howned : (s.user ++ s.cache.map Prod.snd).Perm (live s.log) := List.perm_append_comm.trans hc.owned
  unfold close
  refine Prog.wp_then (R := fun a s' => a = s ∧ s' = s) ⟨rfl, rfl⟩ fun a s' has => ?_
  obtain ⟨rfl, rfl⟩ := has
  refine Prog.wp_then (finalizeAll_wp howned hc.sound) fun _ s₁ h₁ => ?_
  obtain ⟨log₁, rfl, hcached, hsound⟩ := h₁
  simp only [Prog.wp_bind, Prog.wp_modify, Prog.wp_get]
  rw [← List.append_nil (List.map _ _)] at hcached
  refine Prog.wp_mono (finalizeAll_wp (s := { s' with log := log₁, user := [] }) hcached hsound) (fun _ s₂ h₂ => ?_)
    fun _ h => h
  obtain ⟨log₂, rfl, hnone, hsound⟩ := h₂
  exact ⟨log₂, rfl, List.nil_perm.mp hnone, hsound⟩

/-- Nothing is left to be out of order. -/
theorem Calm.closed {c : Ctx} {log : List Event} (hc : Calm c s) (hnone : live log = []) (hsound : Sound log) :
    Calm { c with sizes := [] } { s with log, cache := [], user := [] } where
  sound := hsound
  nodup := by
    show (live log).Nodup
    rw [hnone]
    exact List.nodup_nil
  owned := by
    show List.Perm [] (live log)
    rw [hnone]
  small := Nat.zero_le _
  keys e he := by cases he
  idle e he := by cases he
  still k hk := by cases hk
  sizes x hx := by cases hx
  starts := hc.starts
  current := hc.current

/-- A sound log prepares an address as often as it finalizes it, and once more while it is in use. -/
theorem count_prepared {log : List Event} (hs : Sound log) :
    log.count (.prepared h) = log.count (.finalized h) + (live log).count h := by
  induction log with
  | nil => rfl
  | cons e log ih =>
    cases e with
    | prepared k =>
      have ih := ih hs.2
      by_cases hk : k = h
      · subst hk
        simp [live, ih]
        omega
      · simp [live, ih, hk]
    | finalized k =>
      have ih := ih hs.2
      by_cases hk : k = h
      · subst hk
        have hpos : 0 < (live log).count k := List.count_pos_iff.mpr hs.1
        simp [live, ih]
        omega
      · have : ¬h = k := fun e => hk e.symm
        simp [live, ih, hk, List.count_erase_of_ne this]
    | used k =>
      simpa [live] using ih hs.2

/-- **No statement is lost and none is used behind its end**: after every call
the cache and the user hold live handles, each once, and the cache no more than
64; nothing is done with a handle that is not live; and `close` leaves no
handle live, each finalized as often as it was prepared. -/
theorem statement_lifecycle (g : Guest) (calls : List Call) :
    EveryState (step g) Lawful {} calls ∧
    ∃ s s', Sqlol.run (step g) {} calls = some s ∧ close s = (some (), s') ∧ Sound s'.log ∧ live s'.log = [] ∧
      ∀ h, s'.log.count (.finalized h) = s'.log.count (.prepared h) := by
  have hinit : Settled {} := ⟨[], calm_empty⟩
  refine ⟨?_, ?_⟩
  · exact everyState_of_invariant (fun _ _ _ hs _ hstep => step_settled hs hstep) (fun _ ⟨_, hc⟩ => hc.lawful) hinit
      everyStep_true
  · obtain ⟨s, hrun, params, hc⟩ := (run_settled hinit : ∃ s, Sqlol.run (step g) {} calls = some s ∧ Settled s)
    have hclose := close_wp hc
    unfold Prog.wp at hclose
    split at hclose
    · next u s' heq =>
      obtain ⟨log, rfl, hnone, hsound⟩ := hclose
      refine ⟨s, _, hrun, heq, hsound, hnone, fun h => ?_⟩
      rw [count_prepared hsound, hnone]
      rfl
    · exact hclose.elim

/-- What `prepare` returned is kept by number; a new one comes behind the others. -/
theorem getElem?_concat_cases {α : Type} {xs : List α} {x y : α} {i : Nat} (hi : (xs ++ [x])[i]? = some y) :
    xs[i]? = some y ∨ (i = xs.length ∧ y = x) := by
  rcases Nat.lt_trichotomy i xs.length with hlt | rfl | hgt
  · rw [List.getElem?_append_left hlt] at hi
    exact .inl hi
  · rw [List.getElem?_concat_length] at hi
    exact .inr ⟨rfl, (Option.some.inj hi).symm⟩
  · rw [List.getElem?_eq_none (by simp; omega)] at hi
    cases hi

end Statements

end Sqlol

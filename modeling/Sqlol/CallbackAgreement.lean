/-
`JvmCallbacks` under any number of connections: what SQLite may pass is registered,
behind `_close` nothing is left, and no connection frees another's key.

The keys are told apart by whom they were issued to, which says which connection
owes a key only as long as `nextKey` gives out no key that is in use. It is a 32-bit
counter, and the documentation has it start at 1 because 0 is taken for NULL; behind
`2 ^ 32 - 1` registrations it gives out 0 all the same (`key_zero_left`).
-/
import Sqlol.CallbackKeys

namespace Sqlol

namespace CallbackRegistry

variable {s s' : Sys} {l : Nat × Call}

/-- Every key that a connection holds is registered, every registered one is owed by a connection, and
that is the one it was issued to. -/
structure Inv (s : Sys) : Prop where
  wf : ∀ c, (s.db c).WF
  registered : ∀ c kind k, (s.db c).Holds kind k → s.callbacks kind k = true
  owed : ∀ kind k, s.callbacks kind k = true → ∃ c, (s.db c).Owes kind k
  issued : ∀ c kind k, (s.db c).Owes kind k → s.issued k = some (c, kind)

theorem not_owes_default {kind : Kind} {k : Nat} : ¬ ({} : WorkerDb).Owes kind k := by
  cases kind <;> simp [WorkerDb.Owes, WorkerDb.Holds, Op.old, Op.made, Op.turnedDown, eq_comm]

theorem inv_start : Inv {} where
  wf _ := WorkerDb.wf_default
  registered _ _ _ h := absurd (.inl h) not_owes_default
  owed _ _ h := by cases h
  issued _ _ _ h := absurd h not_owes_default

theorem Inv.oneKind (hi : Inv s) (c : Nat) : (s.db c).OneKind := by
  intro kd kd' k h h'
  have heq := (hi.issued c kd k h).symm.trans (hi.issued c kd' k h')
  cases heq
  rfl

/-- A step that registers finds a key in `nextKey` that no connection has a use for, and that is not 0
when a hook is to have it. -/
def Unused (s : Sys) (l : Nat × Call) : Prop :=
  ∀ d kind, (s.db l.1).step s.nextKey l.2 = some (d, .register kind) →
    (∀ c kd, ¬ (s.db c).Owes kd s.nextKey) ∧ ∀ h, kind = .hook h → s.nextKey ≠ 0

theorem foldl_free (keys : List Nat) (s : Sys) :
    keys.foldl Sys.free s = { s with callbacks := fun kd k => if k ∈ keys then false else s.callbacks kd k } := by
  induction keys generalizing s with
  | nil => simp
  | cons j keys ih =>
    rw [List.foldl_cons, ih]
    simp only [Sys.free, Sys.mk.injEq, true_and, and_true]
    funext kd k
    by_cases hj : k = j <;> simp [hj]

theorem callbacks_foldl_free (keys : List Nat) (s : Sys) (kd : Kind) (k : Nat) :
    (keys.foldl Sys.free s).callbacks kd k = if k ∈ keys then false else s.callbacks kd k := by rw [foldl_free]

theorem issued_foldl_free (keys : List Nat) (s : Sys) : (keys.foldl Sys.free s).issued = s.issued := by
  rw [foldl_free]

theorem nextKey_foldl_free (keys : List Nat) (s : Sys) : (keys.foldl Sys.free s).nextKey = s.nextKey := by
  rw [foldl_free]

/-- The step of the system, and what it does to the connection that takes it. -/
theorem step_cases (hi : Inv s) (hu : Unused s l) (h : step s l = some s') : ∃ d e,
    s' = { s.perform l.1 e with db := Function.update s.db l.1 d } ∧ d.WF ∧ (s.db l.1).Moves d s.nextKey e ∧
      ∀ kind, e = .register kind → ∀ c kd, ¬ (s.db c).Owes kd s.nextKey := by
  simp only [step, Option.map_eq_some_iff, Prod.exists] at h
  obtain ⟨d, e, hd, rfl⟩ := h
  have hf : ∀ kind, e = .register kind → (s.db l.1).Fresh s.nextKey kind := by
    rintro kind rfl
    exact ⟨(hu d kind hd).1 l.1, (hu d kind hd).2⟩
  obtain ⟨hwf, hm⟩ := WorkerDb.step_spec (hi.wf l.1) (hi.oneKind l.1) hf hd
  refine ⟨d, e, rfl, hwf, hm, ?_⟩
  rintro kind rfl
  exact (hu d kind hd).1

/-- A property of every connection, the others unchanged. -/
theorem forall_update (P : Nat → WorkerDb → Prop) {c : Nat} {d : WorkerDb} (hc : P c d)
    (ho : ∀ b, b ≠ c → P b (s.db b)) : ∀ b, P b (Function.update s.db c d b) := by
  intro b
  by_cases hb : b = c
  · subst hb
    rwa [Function.update_self]
  · rw [Function.update_of_ne hb]
    exact ho b hb

theorem register_inv {c : Nat} {d : WorkerDb} {kind : Kind} (hi : Inv s) (hwf : d.WF)
    (hm : (s.db c).Moves d s.nextKey (.register kind)) (hu : ∀ b kd, ¬ (s.db b).Owes kd s.nextKey) :
    Inv { s.register c kind with db := Function.update s.db c d } := by
  obtain ⟨hholds, howes⟩ := hm
  have hne : ∀ {b kd k}, (s.db b).Owes kd k → k ≠ s.nextKey := by
    rintro b kd k hk rfl
    exact hu b kd hk
  have hnew : (s.register c kind).callbacks kind s.nextKey = true := by simp [Sys.register]
  have hstay : ∀ {kd k}, s.callbacks kd k = true → (s.register c kind).callbacks kd k = true := by
    intro kd k hk
    simp [Sys.register, hk]
  refine ⟨forall_update (fun _ d => d.WF) hwf fun b _ => hi.wf b,
    forall_update (fun _ d => ∀ kd k, d.Holds kd k → (s.register c kind).callbacks kd k = true) ?_ ?_, ?_,
    forall_update (fun b d => ∀ kd k, d.Owes kd k → (s.register c kind).issued k = some (b, kd)) ?_ ?_⟩
  · intro kd k hk
    rcases hholds kd k hk with hk | ⟨rfl, rfl⟩
    · exact hstay (hi.registered c kd k hk)
    · exact hnew
  · exact fun b _ kd k hk => hstay (hi.registered b kd k hk)
  · intro kd k hk
    by_cases hkey : kd = kind ∧ k = s.nextKey
    · exact ⟨c, by simpa only [Function.update_self] using (howes kd k).mpr (.inr hkey)⟩
    · simp only [Sys.register, hkey, if_false] at hk
      obtain ⟨b, hb⟩ := hi.owed kd k hk
      refine ⟨b, ?_⟩
      by_cases hbc : b = c
      · subst hbc
        simpa only [Function.update_self] using (howes kd k).mpr (.inl hb)
      · simpa only [Function.update_of_ne hbc] using hb
  · intro kd k hk
    rcases (howes kd k).mp hk with hk | ⟨rfl, rfl⟩
    · simpa only [Sys.register, Function.update_of_ne (hne hk)] using hi.issued c kd k hk
    · simp [Sys.register]
  · intro b _ kd k hk
    simpa only [Sys.register, Function.update_of_ne (hne hk)] using hi.issued b kd k hk

theorem free_inv {c : Nat} {d : WorkerDb} {keys : List Nat} (hi : Inv s) (hwf : d.WF)
    (hm : (s.db c).Moves d s.nextKey (.free keys)) :
    Inv { keys.foldl Sys.free s with db := Function.update s.db c d } := by
  obtain ⟨hholds, howes, hrest, hkeys⟩ := hm
  -- A freed key is the connection's own, by the note of whom it was issued to.
  have hother : ∀ {b kd k}, b ≠ c → (s.db b).Owes kd k → k ∉ keys := by
    intro b kd k hbc hk hmem
    obtain ⟨kd', hk'⟩ := hkeys k hmem
    have heq := (hi.issued b kd k hk).symm.trans (hi.issued c kd' k hk')
    cases heq
    exact hbc rfl
  have hstay : ∀ {kd k}, k ∉ keys → s.callbacks kd k = true → (keys.foldl Sys.free s).callbacks kd k = true := by
    intro kd k hk h
    rw [callbacks_foldl_free, if_neg hk, h]
  refine ⟨forall_update (fun _ d => d.WF) hwf fun b _ => hi.wf b,
    forall_update (fun _ d => ∀ kd k, d.Holds kd k → (keys.foldl Sys.free s).callbacks kd k = true) ?_ ?_, ?_,
    forall_update (fun b d => ∀ kd k, d.Owes kd k → (keys.foldl Sys.free s).issued k = some (b, kd)) ?_ ?_⟩
  · intro kd k hk
    obtain ⟨hk, hmem⟩ := hholds kd k hk
    exact hstay hmem (hi.registered c kd k hk)
  · exact fun b hbc kd k hk => hstay (hother hbc (.inl hk)) (hi.registered b kd k hk)
  · intro kd k hk
    simp only [callbacks_foldl_free] at hk
    split at hk
    · cases hk
    · obtain ⟨b, hb⟩ := hi.owed kd k hk
      refine ⟨b, ?_⟩
      by_cases hbc : b = c
      · subst hbc
        simpa only [Function.update_self] using hrest kd k hb ‹_›
      · simpa only [Function.update_of_ne hbc] using hb
  · intro kd k hk
    simpa only [issued_foldl_free] using hi.issued c kd k (howes kd k hk)
  · intro b _ kd k hk
    simpa only [issued_foldl_free] using hi.issued b kd k hk

theorem step_inv (s : Sys) (l : Nat × Call) (s' : Sys) (hi : Inv s) (hu : Unused s l) (h : step s l = some s') :
    Inv s' := by
  obtain ⟨d, e, rfl, hwf, hm, hf⟩ := step_cases hi hu h
  cases e with
  | register kind => exact register_inv hi hwf hm (hf kind rfl)
  | free keys => exact free_inv hi hwf hm

theorem Inv.freesOwn (hi : Inv s) (hu : Unused s l) : FreesOwn s l := by
  intro s' kd k h hk hk'
  obtain ⟨d, e, rfl, -, hm, -⟩ := step_cases hi hu h
  cases e with
  | register kind => simp [Sys.perform, Sys.register, hk] at hk'
  | free keys =>
    simp only [Sys.perform, callbacks_foldl_free] at hk'
    split at hk'
    · obtain ⟨kd', hown⟩ := hm.2.2.2 k ‹_›
      exact ⟨kd', hi.issued l.1 kd' k hown⟩
    · rw [hk] at hk'
      cases hk'

theorem WorkerDb.WF.not_owes {d : WorkerDb} (hd : d.WF) (he : d.op = .ended) (kd : Kind) (k : Nat) :
    ¬ d.Owes kd k := by
  have hkey := hd.blank (by rw [he]; rfl)
  have hentries := hd.shut (by rw [he]; rfl)
  cases kd <;> simp [WorkerDb.Owes, WorkerDb.Holds, he, hkey, hentries, Op.old, Op.made, Op.turnedDown, eq_comm]

theorem Inv.agrees (hi : Inv s) : Agrees s where
  hooks c h k hk := by
    obtain ⟨hk0, hk'⟩ := (hi.wf c).hook h k hk
    exact hi.registered c (.hook h) k ⟨hk0, hk'.imp_right And.left⟩
  entries c slot k hk := hi.registered c slot.kind k (WorkerDb.holds_of_mem_entries hk)
  ended c k issuedFor he hk kd := by
    by_contra hreg
    obtain ⟨b, hb⟩ := hi.owed kd k (by simpa using hreg)
    have heq := (hi.issued b kd k hb).symm.trans hk
    cases heq
    exact (hi.wf c).not_owes he _ k hb

/-! ## Runs -/

/-- **What SQLite may pass is registered**, a connection that has ended has nothing left in the registry,
and connections free their own keys only, over every interleaving in which no key comes around while it is in use. -/
theorem callback_run_agrees {ls : List (Nat × Call)} (h : EveryStep step Unused {} ls) :
    EveryState step Agrees {} ls ∧ EveryStep step FreesOwn {} ls :=
  ⟨everyState_of_invariant step_inv (fun _ => Inv.agrees) inv_start h,
    everyStep_of_invariant step_inv (fun _ _ => Inv.freesOwn) inv_start h⟩

/-- The keys in use stay below the counter until it comes around. -/
theorem step_below (hi : Inv s) (hu : Unused s l) (h : step s l = some s') (hn : s.nextKey + 1 < 2 ^ 32)
    (hlt : ∀ c kd k, (s.db c).Owes kd k → k < s.nextKey) :
    (s.nextKey ≤ s'.nextKey ∧ s'.nextKey ≤ s.nextKey + 1) ∧ ∀ c kd k, (s'.db c).Owes kd k → k < s'.nextKey := by
  obtain ⟨d, e, rfl, -, hm, -⟩ := step_cases hi hu h
  cases e with
  | register kind =>
    have hnext : (s.perform l.1 (.register kind)).nextKey = s.nextKey + 1 := Nat.mod_eq_of_lt hn
    refine ⟨by simp only [hnext]; omega, ?_⟩
    simp only [hnext]
    refine forall_update (fun _ d => ∀ kd k, d.Owes kd k → k < s.nextKey + 1) (fun kd k hk => ?_)
      (fun b _ kd k hk => ?_)
    · rcases (hm.2 kd k).mp hk with hk | ⟨-, rfl⟩
      · exact Nat.lt_succ_of_lt (hlt l.1 kd k hk)
      · exact Nat.lt_succ_self _
    · exact Nat.lt_succ_of_lt (hlt b kd k hk)
  | free keys =>
    have hnext : (s.perform l.1 (.free keys)).nextKey = s.nextKey := nextKey_foldl_free keys s
    refine ⟨by simp only [hnext]; omega, ?_⟩
    simp only [hnext]
    exact forall_update (fun _ d => ∀ kd k, d.Owes kd k → k < s.nextKey) (fun kd k hk => hlt l.1 kd k (hm.2.1 kd k hk))
      (fun b _ => hlt b)

theorem everyStep_unused_of_below : ∀ {ls : List (Nat × Call)} {s : Sys}, Inv s → 0 < s.nextKey →
    (∀ c kd k, (s.db c).Owes kd k → k < s.nextKey) → s.nextKey + ls.length < 2 ^ 32 → EveryStep step Unused s ls
  | [], _, _, _, _, _ => trivial
  | l :: ls, s, hi, hpos, hlt, hlen => by
    have hu : Unused s l := fun _ _ _ =>
      ⟨fun c kd h => Nat.lt_irrefl _ (hlt c kd _ h), fun _ _ => Nat.pos_iff_ne_zero.mp hpos⟩
    rw [List.length_cons] at hlen
    refine ⟨hu, fun s' h => ?_⟩
    obtain ⟨hn, hlt'⟩ := step_below hi hu h (by omega) hlt
    exact everyStep_unused_of_below (step_inv s l s' hi hu h) (by omega) hlt' (by omega)

/-- No key comes around in a run of fewer than `2 ^ 32 - 1` steps. -/
theorem everyStep_unused_of_short {ls : List (Nat × Call)} (h : ls.length < 2 ^ 32 - 1) : EveryStep step Unused {} ls :=
  everyStep_unused_of_below inv_start Nat.one_pos (fun _ _ _ h => absurd h not_owes_default) (by simp only; omega)

/-- A connection with a busy handler, commit listeners and a function, and another one whose function is
refused; the first one is closed. -/
def twoConnections : List (Nat × Call) :=
  [(0, .opened), (1, .opened), (0, .busyHandler true), (1, .create (.function "f" 1 0)), (0, .proceed), (0, .proceed),
    (1, .answer false true), (0, .proceed), (0, .proceed), (0, .addCommitListener 7), (1, .proceed), (0, .proceed),
    (0, .proceed), (0, .proceed), (0, .proceed), (0, .proceed), (0, .create (.collation "c")), (0, .answer true false),
    (0, .busyTimeout), (0, .close), (0, .drop (.collation "c")), (0, .closed)] ++ List.replicate 6 (0, .proceed)

theorem callback_run_agrees_two_connections :
    ((run step {} twoConnections).map fun s => (s.db 0).op) = some .ended ∧
      EveryStep step Unused {} twoConnections ∧
      EveryState step Agrees {} twoConnections ∧ EveryStep step FreesOwn {} twoConnections := by
  have hu : EveryStep step Unused {} twoConnections := everyStep_unused_of_short (by decide)
  exact ⟨by decide +kernel, hu, callback_run_agrees hu⟩

/-! ## Key 0 -/

/-- `busy_handler` on connection 0, to its end. -/
def busyRound : List (Nat × Call) := (0, .busyHandler true) :: List.replicate 4 (0, .proceed)

/-- What is left of `s` behind some steps of connection 0: its entries, the counter, and key 0. -/
structure Left (s s' : Sys) (op : Op) : Prop where
  op : (s'.db 0).op = op
  entries : (s'.db 0).entries = (s.db 0).entries
  nextKey : s'.nextKey = s.nextKey
  issued : s'.issued = s.issued
  zero : ∀ kd, s'.callbacks kd 0 = s.callbacks kd 0

theorem Left.trans {t : Sys} {op op' : Op} (h : Left s s' op) (h' : Left s' t op') : Left s t op' where
  op := h'.op
  entries := h'.entries.trans h.entries
  nextKey := h'.nextKey.trans h.nextKey
  issued := h'.issued.trans h.issued
  zero kd := (h'.zero kd).trans (h.zero kd)

/-- Keys are freed one by one, and 0 is passed over. -/
theorem run_freeing (closing : Bool) : ∀ (old : List (Hook × Nat)) {s : Sys}, (s.db 0).op = .freeing old closing →
    ∃ s', run step s (List.replicate (old.length + 1) (0, .proceed)) = some s' ∧
      Left s s' (if closing then .ended else .idle)
  | [], s, ho => by
    refine ⟨_, by simp [run, step, WorkerDb.step, WorkerDb.proceed, ho]; rfl, ?_⟩
    constructor <;> simp [Sys.perform]
  | (h, k) :: old, s, ho => by
    have hs : step s (0, .proceed) = some { s.perform 0 (.free (if k = 0 then [] else [k])) with
        db := Function.update s.db 0 { s.db 0 with op := .freeing old closing } } := by
      simp [step, WorkerDb.step, WorkerDb.proceed, ho]
    have hl : Left s { s.perform 0 (.free (if k = 0 then [] else [k])) with
        db := Function.update s.db 0 { s.db 0 with op := .freeing old closing } } (.freeing old closing) := by
      constructor <;> simp only [Sys.perform, foldl_free, Function.update_self]
      intro kd
      rw [if_neg (by split <;> simp_all [eq_comm])]
    obtain ⟨s', hrun, hl'⟩ := run_freeing closing old hl.op
    refine ⟨s', ?_, hl.trans hl'⟩
    rw [List.length_cons, List.replicate_succ, run, hs]
    exact hrun

/-- Behind `busyHandler` and two steps of it, only the old key is left to free. -/
theorem run_busyHandler (hi : (s.db 0).op = .idle) : ∃ t,
    run step s [(0, .busyHandler true), (0, .proceed), (0, .proceed)] = some t ∧
      (t.db 0).op = .freeing [(.busy, (s.db 0).key .busy)] false ∧ (t.db 0).entries = (s.db 0).entries ∧
      t.nextKey = (s.nextKey + 1) % 2 ^ 32 ∧ t.issued s.nextKey = some (0, .hook .busy) ∧
      t.callbacks (.hook .busy) s.nextKey = true := by
  refine ⟨{ s.register 0 (.hook .busy) with db := Function.update s.db 0 { (s.db 0).setKey .busy s.nextKey with
    hook := (((s.db 0).setKey .busy s.nextKey).arm .busy true).hook
    op := .freeing [(.busy, (s.db 0).key .busy)] false } }, ?_, ?_, ?_, rfl, ?_, ?_⟩
  · simp [run, step, WorkerDb.step, WorkerDb.request, WorkerDb.replace, WorkerDb.proceed, WorkerDb.arm,
      WorkerDb.setKey, Sys.perform, Sys.register, hi]
  · simp
  · simp [WorkerDb.setKey]
  · simp [Sys.register]
  · simp [Sys.register]

theorem run_busyRound (hi : (s.db 0).op = .idle) : ∃ t s', run step s busyRound = some s' ∧ Left t s' .idle ∧
    (t.db 0).entries = (s.db 0).entries ∧ t.nextKey = (s.nextKey + 1) % 2 ^ 32 ∧
      t.issued s.nextKey = some (0, .hook .busy) ∧ t.callbacks (.hook .busy) s.nextKey = true := by
  obtain ⟨t, hrun, ho, ht⟩ := run_busyHandler hi
  obtain ⟨s', hrun', hl⟩ := run_freeing false _ ho
  refine ⟨t, s', ?_, hl, ht⟩
  have hround : busyRound =
      [(0, .busyHandler true), (0, .proceed), (0, .proceed)] ++ List.replicate 2 (0, .proceed) := rfl
  rw [hround, run_append, hrun]
  exact hrun'

/-- A runtime whose connection 0 has set a busy handler `n` times. -/
theorem run_busyRounds (n : Nat) : ∃ s, run step {} ((0, .opened) :: (List.replicate n busyRound).flatten) = some s ∧
    (s.db 0).op = .idle ∧ (s.db 0).entries = [] ∧ s.nextKey = (n + 1) % 2 ^ 32 := by
  induction n with
  | zero => exact ⟨_, rfl, rfl, rfl, rfl⟩
  | succ n ih =>
    obtain ⟨s, hrun, ho, he, hn⟩ := ih
    obtain ⟨t, s', hrun', hl, he', hn', -⟩ := run_busyRound ho
    refine ⟨s', ?_, hl.op, (hl.entries.trans he').trans he, ?_⟩
    · rw [List.replicate_succ', List.flatten_append, List.flatten_singleton, ← List.cons_append, run_append, hrun]
      exact hrun'
    · rw [hl.nextKey, hn', hn, Nat.mod_add_mod]

/-- `_close` with nothing in SQLite but hooks. -/
theorem run_close (hi : (s.db 0).op = .idle) (he : (s.db 0).entries = []) :
    ∃ s', run step s ((0, .close) :: (0, .closed) :: List.replicate 6 (0, .proceed)) = some s' ∧ Left s s' .ended := by
  have ht : ∃ t, run step s [(0, .close), (0, .closed)] = some t ∧
      Left s t (.freeing ([.busy, .progress, .commit, .rollback, .update].map fun h => (h, (s.db 0).key h)) true) := by
    refine ⟨{ s with db := Function.update s.db 0 { (s.db 0).close with
      hook := fun _ => none
      op := .freeing ([.busy, .progress, .commit, .rollback, .update].map fun h => (h, (s.db 0).key h)) true } },
      ?_, ?_⟩
    · simp [run, step, WorkerDb.step, WorkerDb.request, WorkerDb.close, Sys.perform, hi, he]
    · constructor <;> simp [WorkerDb.close]
  obtain ⟨t, hrun, hl⟩ := ht
  obtain ⟨s', hrun', hl'⟩ := run_freeing true _ hl.op
  refine ⟨s', ?_, hl.trans hl'⟩
  have hsplit : (0, Call.close) :: (0, .closed) :: List.replicate 6 (0, .proceed) =
    [(0, .close), (0, .closed)] ++ List.replicate 6 (0, .proceed) := rfl
  rw [hsplit, run_append, hrun]
  exact hrun'

/-- Connection 0 sets a busy handler `n` times and is closed. -/
def busyThenClose (n : Nat) : List (Nat × Call) :=
  ((0, .opened) :: (List.replicate n busyRound).flatten) ++
    (0, .close) :: (0, .closed) :: List.replicate 6 (0, .proceed)

/-- The last of `2 ^ 32` busy handlers gets key 0, which `_close` takes for none: it stays registered. -/
theorem key_zero_left : ¬ EveryState step Agrees {} (busyThenClose (2 ^ 32)) := by
  intro h
  obtain ⟨s, hrun, ho, he, hn⟩ := run_busyRounds (2 ^ 32 - 1)
  obtain ⟨t, s', hrun', hl, he', -, hissued, hreg⟩ := run_busyRound ho
  obtain ⟨s'', hrun'', hl'⟩ := run_close hl.op ((hl.entries.trans he').trans he)
  have hzero : s.nextKey = 0 := hn
  rw [hzero] at hissued hreg
  have hrounds : (0, .opened) :: (List.replicate (2 ^ 32) busyRound).flatten =
      ((0, .opened) :: (List.replicate (2 ^ 32 - 1) busyRound).flatten) ++ busyRound := by
    rw [show 2 ^ 32 = 2 ^ 32 - 1 + 1 from rfl, List.replicate_succ', List.flatten_append, List.flatten_singleton]
    rfl
  have hlast : Agrees s'' := h.last (by
    rw [busyThenClose, hrounds, run_append, run_append, hrun, Option.bind_some, hrun', Option.bind_some, hrun''])
  have hfree := hlast.ended 0 0 (.hook .busy) hl'.op (by rw [hl'.issued, hl.issued, hissued]) (.hook .busy)
  rw [hl'.zero, hl.zero, hreg] at hfree
  cases hfree

end CallbackRegistry

end Sqlol

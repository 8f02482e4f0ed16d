/-
Who closes a child: `SqliteWorker.spawn` and `SqliteWorker.stop` over the
handshake of `spawnPthread` and `closeChild`.

A carrier sleeps until `closeChild` completes its `shutdown`. Inside
`spawnPthread` the request holds it, then `spawn`, then the worker until it is
stopped. `spawn` closes the child whatever it throws. But `spawnPthread` lets go
of it when it throws behind the thread it has made (from `free(pt)`, or from the
wait for `started`), and `stop` marks the worker as closed before
`session.close()`: if that throws, the child is not closed, and no later `stop`
does it. In every run without these no carrier is left behind
(`spawn_stop_parks_none`).
-/
import Sqlol.SpawnHandshake

namespace Sqlol

namespace ParkedCarriers

open SpawnHandshake (Sys Child Frame Tid Inv)

/-- How far `SqliteWorker` is with a child. -/
inductive Phase where
  | none
  /-- `spawn` has it from `spawnPthread`. -/
  | spawning
  /-- A worker has it. -/
  | live
  /-- `stop`, behind `closed = true`. -/
  | stopping
  /-- `spawn` has thrown, or `stop` has returned or thrown behind `closed = true`. -/
  | gone
  deriving DecidableEq

/-- The handshake, and who has each child. -/
structure State where
  sys : Sys := {}
  phase : Nat → Phase := fun _ => .none

/-- The steps of the handshake, and those of `SqliteWorker` around it. -/
inductive Label where
  /-- Any step of the handshake but `closeChild`. `spawnPthread` is called by `spawn` only. -/
  | sys (l : SpawnHandshake.Label)
  /-- `spawn` returns its worker. -/
  | spawned (k : Nat)
  /-- `spawn` throws behind `spawnPthread`; its `catch` calls `closeChild`. -/
  | spawnThrows (t : Tid) (k : Nat)
  /-- `stop` has the lock, and the worker is not closed. -/
  | stop (k : Nat)
  /-- `stop` on a worker that is closed. -/
  | stopAgain (k : Nat)
  /-- `stop` does not get the lock in 60 s, and throws. -/
  | stopTimesOut (k : Nat)
  /-- `session.close()` returns, and `stop` calls `closeChild`. -/
  | sessionClosed (t : Tid) (k : Nat)
  /-- `session.close()` throws. -/
  | sessionThrows (k : Nat)

/-- What a child has come to. -/
def setPhase (s : State) (sys : Sys) (k : Nat) (phase : Phase) : State :=
  ⟨sys, Function.update s.phase k phase⟩

/-- The child that is handed over when `started.get` returns on this thread. -/
def awaited (s : Sys) (t : Tid) : Option Nat := match s.stack t with
  | .awaiting k :: _ => some k
  | _ => none

/-- One step; none where it is not the next one. -/
def step (s : State) : Label → Option State
  | .sys (.close _ _) => none
  | .sys (.started t) => (awaited s.sys t).bind fun k =>
    (SpawnHandshake.step s.sys (.started t)).map fun sys => setPhase s sys k .spawning
  | .sys l => (SpawnHandshake.step s.sys l).map fun sys => ⟨sys, s.phase⟩
  | .spawned k => if s.phase k = .spawning then some (setPhase s s.sys k .live) else none
  | .spawnThrows t k =>
    if s.phase k = .spawning then (SpawnHandshake.step s.sys (.close t k)).map fun sys => setPhase s sys k .gone
    else none
  | .stop k => if s.phase k = .live then some (setPhase s s.sys k .stopping) else none
  | .stopAgain k => if s.phase k = .stopping ∨ s.phase k = .gone then some s else none
  | .stopTimesOut k => if s.phase k = .live ∨ s.phase k = .stopping then some s else none
  | .sessionClosed t k =>
    if s.phase k = .stopping then (SpawnHandshake.step s.sys (.close t k)).map fun sys => setPhase s sys k .gone
    else none
  | .sessionThrows k => if s.phase k = .stopping then some (setPhase s s.sys k .gone) else none

/-! ## What is claimed -/

/-- The child that a call of `spawnPthread` is about. -/
def request : Frame → Option Nat
  | .creating k | .created k | .awaiting k => some k
  | _ => none

/-- That of the innermost call of a thread. -/
def top (s : Sys) (t : Tid) : Option Nat := (s.stack t).head?.bind request

/-- `spawnPthread`, `spawn` or a worker that is not stopped has the child. -/
def Held (s : State) (k : Nat) : Prop :=
  (∃ t, top s.sys t = some k) ∨ s.phase k = .spawning ∨ s.phase k = .live ∨ s.phase k = .stopping

/-- A child that nobody holds has no thread, or its `shutdown` is complete. -/
def NoneParked (s : State) : Prop :=
  ∀ k, ¬ Held s k → (s.sys.children k).vt = none ∨ (s.sys.children k).shutdown = true

/-- `spawnPthread` does not throw behind the thread it has made, nor does the closing of a session. -/
def Orderly : Label → Prop
  | .sys (.freeThrows _) | .sys (.startedThrows _ _) | .sessionThrows _ => False
  | _ => True

instance : ∀ l, Decidable (Orderly l)
  | .sys (.freeThrows _) | .sys (.startedThrows _ _) | .sessionThrows _ => .isFalse id
  | .sys (.enter _) | .sys (.leave _) | .sys (.spawn _) | .sys (.threadSpawn _ _) | .sys (.refuse _)
  | .sys (.create _) | .sys (.started _) | .sys (.guestSpawn _) | .sys (.slot0 _) | .sys (.complete _)
  | .sys (.wake _) | .sys (.startReturns _) | .sys (.trap _) | .sys (.finish _) | .sys (.propagate _)
  | .sys (.close _ _) | .sys (.closed _) | .sys (.closeThrows _ _)
  | .spawned _ | .spawnThrows _ _ | .stop _ | .stopAgain _ | .stopTimesOut _ | .sessionClosed _ _ => .isTrue trivial

/-! ## What the handshake's steps leave alone -/

/-- No request is begun or given up, no thread is made for a child, and no `shutdown` is taken back. -/
structure Same (s s' : Sys) : Prop where
  top : ∀ t, top s' t = top s t
  vt : ∀ k, (s'.children k).vt = (s.children k).vt
  exports : ∀ k, (s'.children k).exports = (s.children k).exports
  shutdown : ∀ k, (s.children k).shutdown = true → (s'.children k).shutdown = true

variable {s s' : Sys} {t : Tid} {k : Nat}

theorem Same.trans {s'' : Sys} (h : Same s s') (h' : Same s' s'') : Same s s'' :=
  ⟨fun t => (h'.top t).trans (h.top t), fun k => (h'.vt k).trans (h.vt k), fun k => (h'.exports k).trans (h.exports k),
    fun k hk => h'.shutdown k (h.shutdown k hk)⟩

theorem top_setStack_self (st : List Frame) : top (s.setStack t st) t = st.head?.bind request := by
  have hstack : (s.setStack t st).stack t = st := Function.update_self ..
  rw [top, hstack]

theorem top_setStack_ne {u : Tid} (st : List Frame) (h : u ≠ t) : top (s.setStack t st) u = top s u := by
  have hstack : (s.setStack t st).stack u = s.stack u := Function.update_of_ne h ..
  rw [top, hstack, top]

/-- A thread goes from one call that is no request's to another. -/
theorem same_setStack {st : List Frame} (hold : top s t = none) (hst : st.head?.bind request = none) :
    Same s (s.setStack t st) := by
  refine ⟨fun u => ?_, fun _ => rfl, fun _ => rfl, fun _ h => h⟩
  rcases eq_or_ne u t with rfl | hne
  · rw [top_setStack_self, hst, hold]
  · rw [top_setStack_ne st hne]

theorem same_setChild {c : Child} (hvt : c.vt = (s.children k).vt) (hexports : c.exports = (s.children k).exports)
    (hshutdown : (s.children k).shutdown = true → c.shutdown = true) : Same s (s.setChild k c) := by
  have hself : (s.setChild k c).children k = c := Function.update_self ..
  have hother : ∀ j, j ≠ k → (s.setChild k c).children j = s.children j := fun j hj => Function.update_of_ne hj ..
  refine ⟨fun _ => rfl, fun j => ?_, fun j => ?_, fun j hj => ?_⟩
  · rcases eq_or_ne j k with rfl | hne
    · rw [hself, hvt]
    · rw [hother j hne]
  · rcases eq_or_ne j k with rfl | hne
    · rw [hself, hexports]
    · rw [hother j hne]
  · rcases eq_or_ne j k with rfl | hne
    · rw [hself]
      exact hshutdown hj
    · rw [hother j hne]
      exact hj

theorem same_setBoth {c : Child} {st : List Frame} (hold : top s t = none) (hst : st.head?.bind request = none)
    (hvt : c.vt = (s.children k).vt) (hexports : c.exports = (s.children k).exports)
    (hshutdown : (s.children k).shutdown = true → c.shutdown = true) : Same s ((s.setChild k c).setStack t st) :=
  (same_setChild hvt hexports hshutdown).trans (same_setStack hold hst)

theorem head_guest {rest : List Frame} (h : ∀ f ∈ rest, f = .guest) : rest.head?.bind request = none := by
  cases rest with
  | nil => rfl
  | cons f rest =>
    rw [h f List.mem_cons_self]
    rfl

theorem top_of_stack {f : Frame} {rest : List Frame} (hst : s.stack t = f :: rest) : top s t = request f := by
  unfold top
  rw [hst]
  rfl

theorem top_ready (hi : Inv s) (hr : s.ready t = true) : top s t = none := head_guest (hi.ready hr).2

/-- The steps that are no request's. -/
def frame : SpawnHandshake.Label → Bool
  | .spawn _ | .threadSpawn _ _ | .refuse _ | .create _ | .freeThrows _ | .started _ | .startedThrows _ _ => false
  | _ => true

/-- A virtual thread that is made for nobody's child. -/
theorem same_delegated (hi : Inv s) : Same s ({ s with delegatedSpawns := s.delegatedSpawns + 1 }.start .guest) := by
  have hnone : top s (.vt s.nextVt) = none := by rw [top, hi.fresh s.nextVt (Nat.le_refl _)]; rfl
  have hsame : Same s (s.setStack (.vt s.nextVt) [.guest]) := same_setStack hnone rfl
  exact ⟨hsame.top, hsame.vt, hsame.exports, hsame.shutdown⟩

theorem same_routeB (hst : top s t = none) : Same s (s.routeB t k) := by
  unfold Sys.routeB
  split
  · exact same_setStack hst rfl
  · exact same_setBoth hst rfl rfl rfl id

theorem same_step (hi : Inv s) {l : SpawnHandshake.Label} (hl : frame l = true)
    (h : SpawnHandshake.step s l = some s') :
    Same s s' := by
  cases l with
  | spawn t => cases hl
  | threadSpawn t ok => cases hl
  | refuse t => cases hl
  | create t => cases hl
  | freeThrows t => cases hl
  | started t => cases hl
  | startedThrows t timeout => cases hl
  | enter t =>
    simp only [SpawnHandshake.step] at h
    split at h
    · next hr =>
      cases h
      exact same_setStack (top_ready hi hr) rfl
    · cases h
  | leave t =>
    simp only [SpawnHandshake.step] at h
    split at h
    · next rest hst =>
      cases h
      exact same_setStack (top_of_stack hst) (head_guest (hi.callerStack hst rfl).2)
    · cases h
  | guestSpawn t =>
    simp only [SpawnHandshake.step] at h
    split at h
    · next rest hst =>
      cases h
      have hscope := hi.routed (.guestSpawn t) rest hst
      simp only [Sys.apply, hscope]
      exact same_delegated hi
    · cases h
  | slot0 t =>
    simp only [SpawnHandshake.step] at h
    split at h
    · next j rest hst =>
      cases h
      have hscope := hi.routed (.slot0 t) j rest hst
      simp only [Sys.apply, hscope]
      exact same_routeB (top_of_stack hst)
    · cases h
  | complete t =>
    simp only [SpawnHandshake.step] at h
    split at h
    · next j rest hst =>
      cases h
      exact same_setBoth (top_of_stack hst) rfl rfl rfl id
    · cases h
  | wake t =>
    simp only [SpawnHandshake.step] at h
    split at h
    · next j i rest hst =>
      split at h
      · cases h
        exact same_setStack (top_of_stack hst) rfl
      · cases h
    · cases h
  | startReturns t =>
    simp only [SpawnHandshake.step] at h
    split at h
    · next j hst =>
      cases h
      exact same_setBoth (top_of_stack hst) rfl rfl rfl id
    · cases h
  | trap t =>
    simp only [SpawnHandshake.step] at h
    split at h
    · next j hst =>
      cases h
      exact same_setStack (top_of_stack hst) rfl
    · next j hst =>
      cases h
      exact same_setStack (top_of_stack hst) rfl
    · cases h
  | finish t =>
    simp only [SpawnHandshake.step] at h
    split at h
    · next j threw hst =>
      cases h
      exact same_setBoth (top_of_stack hst) rfl rfl rfl id
    · cases h
  | propagate j =>
    simp only [SpawnHandshake.step] at h
    split at h
    · cases h
      exact same_setChild rfl rfl id
    · cases h
  | close t j =>
    simp only [SpawnHandshake.step] at h
    split at h
    · next hr =>
      cases h
      exact same_setBoth (top_ready hi hr.1) rfl rfl rfl fun _ => rfl
    · cases h
  | closed t =>
    simp only [SpawnHandshake.step] at h
    split at h
    · next j rest hst =>
      split at h
      · cases h
        exact same_setBoth (top_of_stack hst) (head_guest (hi.callerStack hst rfl).2) rfl rfl id
      · cases h
    · cases h
  | closeThrows t timeout =>
    simp only [SpawnHandshake.step] at h
    split at h
    · next j rest hst =>
      split at h
      · cases h
        exact same_setStack (top_of_stack hst) (head_guest (hi.callerStack hst rfl).2)
      · cases h
    · cases h

/-- `closeChild` completes `shutdown` before anything else. -/
theorem close_shutdown (h : SpawnHandshake.step s (.close t k) = some s') : (s'.children k).shutdown = true := by
  simp only [SpawnHandshake.step] at h
  split at h
  · cases h
    have hchild : (s.setChild k { s.children k with shutdown := true }).children k =
        { s.children k with shutdown := true } := Function.update_self ..
    exact congrArg Child.shutdown hchild
  · cases h

/-! ## The steps -/

/-- With the handshake's own invariant: a child that has a thread has its exports. -/
structure Safe (s : State) : Prop where
  inv : Inv s.sys
  exports : ∀ k, (s.sys.children k).vt ≠ none → (s.sys.children k).exports = true
  none : NoneParked s

theorem safe_start : Safe {} := ⟨SpawnHandshake.inv_start, fun _ h => absurd rfl h, fun _ _ => .inl rfl⟩

section
variable {a : State}

theorem Same.refl (s : Sys) : Same s s := ⟨fun _ => rfl, fun _ => rfl, fun _ => rfl, fun _ h => h⟩

/-- A step of the handshake that is no request's, with the phase of one child. -/
theorem none_setPhase {p : Phase} (h : NoneParked a) (hsame : Same a.sys s')
    (hk : (p = .spawning ∨ p = .live ∨ p = .stopping) ∨ (s'.children k).shutdown = true) :
    NoneParked (setPhase a s' k p) := by
  intro j hj
  rcases eq_or_ne j k with rfl | hne
  · rcases hk with hp | hshutdown
    · refine absurd (.inr ?_) hj
      simp only [setPhase, Function.update_self]
      exact hp
    · exact .inr hshutdown
  · have hold : ¬ Held a j := by
      rintro (⟨u, hu⟩ | hp)
      · exact hj (.inl ⟨u, (hsame.top u).trans hu⟩)
      · refine hj (.inr ?_)
        simp only [setPhase, Function.update_of_ne hne]
        exact hp
    exact (h j hold).imp (hsame.vt j).trans (hsame.shutdown j)

/-- A step that gives up no request but one for which there is no thread. -/
theorem none_request (h : NoneParked a) (hchildren : s'.children = a.sys.children)
    (htop : ∀ u j, top a.sys u = some j → top s' u = some j ∨ (a.sys.children j).vt = none) :
    NoneParked ⟨s', a.phase⟩ := by
  intro j hj
  rw [hchildren]
  by_cases hold : Held a j
  · rcases hold with ⟨u, hu⟩ | hp
    · rcases htop u j hu with hu' | hnone
      · exact absurd (.inl ⟨u, hu'⟩) hj
      · exact .inl hnone
    · exact absurd (.inr hp) hj
  · exact h j hold

/-- The innermost call of one thread is another, and its request is given up or not. -/
theorem none_setStack (st : List Frame) (h : NoneParked a) (hchildren : s'.children = a.sys.children)
    (hstack : s'.stack = (a.sys.setStack t st).stack)
    (ht : ∀ j, top a.sys t = some j → st.head?.bind request = some j ∨ (a.sys.children j).vt = none) :
    NoneParked ⟨s', a.phase⟩ := by
  have htop : ∀ u, top s' u = top (a.sys.setStack t st) u := fun u => by rw [top, hstack, top]
  refine none_request h hchildren fun u j hu => ?_
  rw [htop u]
  rcases eq_or_ne u t with rfl | hne
  · rw [top_setStack_self]
    exact ht j hu
  · rw [top_setStack_ne st hne]
    exact .inl hu

theorem none_routeA {rest : List Frame} (hi : Inv a.sys) (h : NoneParked a)
    (hst : a.sys.stack t = .creating k :: rest) :
    NoneParked ⟨(a.sys.routeA k).setStack t (.created k :: rest), a.phase⟩ := by
  intro j hj
  have hne : j ≠ k := by
    rintro rfl
    exact hj (.inl ⟨t, top_setStack_self _⟩)
  have hchild : ((a.sys.routeA k).setStack t (.created k :: rest)).children j = a.sys.children j :=
    Function.update_of_ne hne ..
  rw [hchild]
  refine h j fun hold => hj ?_
  rcases hold with ⟨u, hu⟩ | hp
  · have hut : u ≠ t := by
      rintro rfl
      rw [top_of_stack hst] at hu
      exact hne (Option.some.inj hu).symm
    have hnew : u ≠ .vt a.sys.nextVt := by
      rintro rfl
      rw [top, hi.fresh _ (Nat.le_refl _)] at hu
      cases hu
    refine .inl ⟨u, (top_setStack_ne _ hut).trans ?_⟩
    have hstart : top (a.sys.routeA k) u = top a.sys u := top_setStack_ne (s := a.sys.setChild k _) _ hnew
    exact hstart.trans hu
  · exact .inr hp

theorem safe_frame (hs : Safe a) {l : SpawnHandshake.Label} (hl : frame l = true)
    (h : SpawnHandshake.step a.sys l = some s') : Safe ⟨s', a.phase⟩ := by
  have hsame := same_step hs.inv hl h
  refine ⟨hs.inv.step h, fun k hk => ?_, fun k hk => ?_⟩
  · rw [hsame.exports]
    exact hs.exports k (hsame.vt k ▸ hk)
  · have hold : ¬ Held a k := fun hold => hk (hold.imp_left fun ⟨t, ht⟩ => ⟨t, (hsame.top t).trans ht⟩)
    exact (hs.none k hold).imp (hsame.vt k).trans (hsame.shutdown k)

theorem safe_spawn (hs : Safe a) (h : SpawnHandshake.step a.sys (.spawn t) = some s') : Safe ⟨s', a.phase⟩ := by
  have hi := hs.inv.step h
  simp only [SpawnHandshake.step] at h
  split at h
  · next hr =>
    cases h
    refine ⟨hi, hs.exports, none_setStack (t := t) _ hs.none rfl rfl fun j hj => ?_⟩
    rw [top_ready hs.inv hr.1] at hj
    cases hj
  · cases h

theorem safe_threadSpawn (hs : Safe a) {ok : Bool} (h : SpawnHandshake.step a.sys (.threadSpawn t ok) = some s') :
    Safe ⟨s', a.phase⟩ := by
  have hi := hs.inv.step h
  simp only [SpawnHandshake.step] at h
  split at h
  · next k rest hst =>
    have hscope := hs.inv.routed (.threadSpawn t ok) k rest hst
    simp only [Sys.apply, hscope] at h
    cases ok with
    | true =>
      cases h
      refine ⟨hi, fun j hj => ?_, none_routeA hs.inv hs.none hst⟩
      rcases eq_or_ne j k with rfl | hne
      · have hchild : ((a.sys.routeA j).setStack t (.created j :: rest)).children j =
            { a.sys.children j with exports := true, vt := some a.sys.nextVt } := Function.update_self ..
        exact congrArg Child.exports hchild
      · have hchild : ((a.sys.routeA k).setStack t (.created k :: rest)).children j = a.sys.children j :=
          Function.update_of_ne hne ..
        exact (congrArg Child.exports hchild).trans (hs.exports j fun hnone =>
          hj ((congrArg Child.vt hchild).trans hnone))
    | false =>
      cases h
      refine ⟨hi, hs.exports, none_setStack (t := t) rest hs.none rfl rfl fun j hj => ?_⟩
      rw [top_of_stack hst] at hj
      cases hj
      exact .inr (hs.inv.creating t k rest hst).1
  · cases h

theorem safe_refuse (hs : Safe a) (h : SpawnHandshake.step a.sys (.refuse t) = some s') : Safe ⟨s', a.phase⟩ := by
  have hi := hs.inv.step h
  simp only [SpawnHandshake.step] at h
  split at h
  · next k rest hst =>
    cases h
    refine ⟨hi, hs.exports, none_setStack (t := t) rest hs.none rfl rfl fun j hj => ?_⟩
    rw [top_of_stack hst] at hj
    cases hj
    exact .inr (hs.inv.creating t k rest hst).1
  · cases h

/-- Without exports, which is when the request is given up here, there is no thread. -/
theorem safe_create (hs : Safe a) (h : SpawnHandshake.step a.sys (.create t) = some s') : Safe ⟨s', a.phase⟩ := by
  have hi := hs.inv.step h
  simp only [SpawnHandshake.step] at h
  split at h
  · next k rest hst =>
    cases h
    refine ⟨hi, hs.exports, none_setStack (t := t) _ hs.none rfl rfl fun j hj => ?_⟩
    rw [top_of_stack hst] at hj
    cases hj
    cases hexports : (a.sys.children k).exports with
    | true => exact .inl rfl
    | false =>
      refine .inr ?_
      by_contra hvt
      rw [hs.exports k hvt] at hexports
      cases hexports
  · cases h

/-- The child goes from the request to `spawn`. -/
theorem safe_started (hs : Safe a) (hk : awaited a.sys t = some k)
    (h : SpawnHandshake.step a.sys (.started t) = some s') : Safe (setPhase a s' k .spawning) := by
  have hi := hs.inv.step h
  unfold awaited at hk
  split at hk
  · next k' rest hst =>
    cases hk
    simp only [SpawnHandshake.step, hst] at h
    split at h
    · cases h
      have hchild : Same a.sys (a.sys.setChild k { a.sys.children k with handed := true }) := same_setChild rfl rfl id
      refine ⟨hi, fun j hj => (hchild.exports j).trans (hs.exports j (hchild.vt j ▸ hj)), fun j hj => ?_⟩
      have hne : j ≠ k := by
        rintro rfl
        exact hj (.inr (.inl (Function.update_self ..)))
      have hold : ¬ Held a j := by
        rintro (⟨u, hu⟩ | hp)
        · have hut : u ≠ t := by
            rintro rfl
            rw [top_of_stack hst] at hu
            exact hne (Option.some.inj hu).symm
          exact hj (.inl ⟨u, (top_setStack_ne _ hut).trans hu⟩)
        · refine hj (.inr ?_)
          simp only [setPhase, Function.update_of_ne hne]
          exact hp
      exact (hs.none j hold).imp (hchild.vt j).trans (hchild.shutdown j)
    · cases h
  · cases hk

/-- A change of phase with no step of the handshake. -/
theorem safe_setPhase {p : Phase} (hs : Safe a) (hp : p = .spawning ∨ p = .live ∨ p = .stopping) :
    Safe (setPhase a a.sys k p) := ⟨hs.inv, hs.exports, none_setPhase hs.none (Same.refl _) (.inl hp)⟩

/-- `closeChild` lets a child go. -/
theorem safe_close (hs : Safe a) (h : SpawnHandshake.step a.sys (.close t k) = some s') :
    Safe (setPhase a s' k .gone) := by
  have hsame := same_step hs.inv (l := .close t k) rfl h
  refine ⟨hs.inv.step h, fun j hj => ?_, none_setPhase hs.none hsame (.inr (close_shutdown h))⟩
  have hexports : (s'.children j).exports = (a.sys.children j).exports := hsame.exports j
  exact hexports.trans (hs.exports j (hsame.vt j ▸ hj))

end

theorem step_safe {a a' : State} {l : Label} (hs : Safe a) (hl : Orderly l) (h : step a l = some a') : Safe a' := by
  cases l with
  | sys l =>
    cases l with
    | close t k => cases h
    | freeThrows t => exact hl.elim
    | startedThrows t timeout => exact hl.elim
    | started t =>
      simp only [step, Option.bind_eq_some_iff, Option.map_eq_some_iff] at h
      obtain ⟨k, hk, sys, hsys, rfl⟩ := h
      exact safe_started hs hk hsys
    | spawn t =>
      obtain ⟨sys, hsys, rfl⟩ := Option.map_eq_some_iff.mp h
      exact safe_spawn hs hsys
    | threadSpawn t ok =>
      obtain ⟨sys, hsys, rfl⟩ := Option.map_eq_some_iff.mp h
      exact safe_threadSpawn hs hsys
    | refuse t =>
      obtain ⟨sys, hsys, rfl⟩ := Option.map_eq_some_iff.mp h
      exact safe_refuse hs hsys
    | create t =>
      obtain ⟨sys, hsys, rfl⟩ := Option.map_eq_some_iff.mp h
      exact safe_create hs hsys
    | _ =>
      obtain ⟨sys, hsys, rfl⟩ := Option.map_eq_some_iff.mp h
      exact safe_frame hs rfl hsys
  | spawned k =>
    simp only [step] at h
    split at h
    · cases h
      exact safe_setPhase hs (.inr (.inl rfl))
    · cases h
  | spawnThrows t k =>
    simp only [step] at h
    split at h
    · obtain ⟨sys, hsys, rfl⟩ := Option.map_eq_some_iff.mp h
      exact safe_close hs hsys
    · cases h
  | stop k =>
    simp only [step] at h
    split at h
    · cases h
      exact safe_setPhase hs (.inr (.inr rfl))
    · cases h
  | stopAgain k =>
    simp only [step] at h
    split at h
    · cases h
      exact hs
    · cases h
  | stopTimesOut k =>
    simp only [step] at h
    split at h
    · cases h
      exact hs
    · cases h
  | sessionClosed t k =>
    simp only [step] at h
    split at h
    · obtain ⟨sys, hsys, rfl⟩ := Option.map_eq_some_iff.mp h
      exact safe_close hs hsys
    · cases h
  | sessionThrows k => exact hl.elim

/-- **In every run in which no wait for `started` and no `session.close()` throws, a
child that nobody holds has no thread, or its `shutdown` is complete.** -/
theorem spawn_stop_parks_none (ls : List Label) (hls : EveryStep step (fun _ l => Orderly l) {} ls) :
    EveryState step NoneParked {} ls :=
  everyState_of_invariant (fun _ _ _ hs hl h => step_safe hs hl h) (fun _ hs => hs.none) safe_start hls

/-- A worker as far as its `spawn` has returned. -/
def spawnOne : List Label :=
  [.sys (.spawn (.caller 0)), .sys (.threadSpawn (.caller 0) true), .sys (.create (.caller 0)), .sys (.slot0 (.vt 0)),
    .sys (.complete (.vt 0)), .sys (.started (.caller 0)), .spawned 0]

/-- A worker that is spawned and stopped. -/
theorem spawn_stop_parks_none_one :
    (run step {} (spawnOne ++ [.stop 0, .sessionClosed (.caller 0) 0])).isSome = true ∧
      EveryState step NoneParked {} (spawnOne ++ [.stop 0, .sessionClosed (.caller 0) 0]) :=
  ⟨by decide, spawn_stop_parks_none _ (by decide)⟩

/-- A run at whose end the child 0 has a thread, is not shut down and is held by nobody. -/
theorem parked_of_run {ls : List Label} {s : State} (hrun : run step {} ls = some s)
    (hcaller : top s.sys (.caller 0) = none) (hvt0 : top s.sys (.vt 0) = none)
    (hother : ∀ t, t ≠ .caller 0 → t ≠ .vt 0 → s.sys.stack t = [])
    (hphase : s.phase 0 = .none ∨ s.phase 0 = .gone)
    (hvt : (s.sys.children 0).vt ≠ none) (hshutdown : (s.sys.children 0).shutdown = false) :
    ¬ EveryState step NoneParked {} ls := by
  intro h
  have htop : ∀ t, top s.sys t = none := by
    intro t
    by_cases hc : t = .caller 0
    · rw [hc, hcaller]
    · by_cases hv : t = .vt 0
      · rw [hv, hvt0]
      · rw [top, hother t hc hv]
        rfl
  have hheld : ¬ Held s 0 := by
    rintro (⟨t, ht⟩ | hp)
    · rw [htop t] at ht
      cases ht
    · rcases hphase with h | h
      · simp [h] at hp
      · simp [h] at hp
  rcases h.last hrun 0 hheld with hnone | hdone
  · exact hvt hnone
  · rw [hshutdown] at hdone
    cases hdone

/-- `session.close()` throws in `stop`, and a second `stop` changes nothing; or the wait for `started` ends
before it comes. -/
theorem parks_one :
    ¬ EveryState step NoneParked {} (spawnOne ++ [.stop 0, .sessionThrows 0, .stopAgain 0]) ∧
    ¬ EveryState step NoneParked {} [.sys (.spawn (.caller 0)), .sys (.threadSpawn (.caller 0) true),
      .sys (.create (.caller 0)), .sys (.startedThrows (.caller 0) true)] := by
  constructor
  · refine parked_of_run (Option.some_get (by decide)).symm (by decide) (by decide) (fun t hc hv => ?_)
      (by decide) (by decide) (by decide)
    simp [spawnOne, run, step, SpawnHandshake.step, setPhase, awaited, Sys.setStack, Sys.setChild, Sys.apply,
      Sys.routeA, Sys.routeB, Sys.start, Sys.ready, Sys.childCallbackScope, Frame.scope, Function.update, hc, hv]
  · refine parked_of_run (Option.some_get (by decide)).symm (by decide) (by decide) (fun t hc hv => ?_)
      (by decide) (by decide) (by decide)
    simp [run, step, SpawnHandshake.step, Sys.setStack, Sys.setChild, Sys.apply, Sys.routeA, Sys.start, Sys.ready,
      Sys.childCallbackScope, Frame.scope, Function.update, hc, hv]

end ParkedCarriers

end Sqlol

/-
`spawnPthread` and `closeChild`: how a caller, the worker thread it makes and the
guest's own spawns pass through one `thread-spawn` dispatcher.

The dispatcher, `SpawnWorkerHandle.apply`, goes by what is bound to
`childCallbackScope` on the thread that calls it: `Phase1` inside the
`pthread_create` of `spawnPthread` (route A, on the caller), `Phase2` inside the
`wasi_thread_start` of a worker (route B), and nothing everywhere else, where it is
the guest itself that starts a thread. A thread here is its stack of calls, and
what is bound is what the innermost call that binds anything has bound; so that
the routes are not confused is a fact about which calls lie above which.

A worker is a virtual thread that route A makes. It comes to route B, detaches its
pthread, completes `started` and sleeps in `shutdown.join()`; behind that,
`wasi_thread_start` returns and `lifetime` is completed.
-/
import Sqlol.Runs
import Mathlib.Logic.Function.Basic

namespace Sqlol

namespace SpawnHandshake

/-- A `CompletableFuture`. -/
inductive Future where
  | pending
  | normal
  | exceptional
  deriving DecidableEq

/-- `complete` and `completeExceptionally`: only the first has an effect. -/
def Future.complete : Future → Future → Future
  | .pending, outcome => outcome
  | f, _ => f

/-- What `childCallbackScope` is bound to; a `Phase1` and the `Phase2` made from it are
known by the child. -/
inductive SpawnPhase where
  | phase1 (k : Nat)
  | phase2 (k : Nat)
  deriving DecidableEq

/-- A call on a thread's stack. -/
inductive Frame where
  /-- Guest code that may start threads: SQL through a child's exports, or a thread of the guest's own. -/
  | guest
  /-- `pthread_create` in `spawnPthread`, before it calls `thread-spawn`. -/
  | creating (k : Nat)
  /-- `thread-spawn` returned a thread id. -/
  | created (k : Nat)
  /-- `started.get`. -/
  | awaiting (k : Nat)
  /-- `lifetime.get` in `closeChild`. -/
  | closing (k : Nat)
  /-- `wasi_thread_start`, before it calls slot 0. -/
  | starting (k : Nat)
  /-- Route B behind the detach; then in `shutdown.join()`. -/
  | routeB (k : Nat) (joining : Bool)
  /-- `wasi_thread_start` behind slot 0. -/
  | exiting (k : Nat)
  /-- The task of `runAsync`, with `wasi_thread_start` returned or thrown. -/
  | finished (k : Nat) (threw : Bool)
  deriving DecidableEq

/-- What a call binds for those above it. -/
def Frame.scope : Frame → Option SpawnPhase
  | .creating k | .created k => some (.phase1 k)
  | .starting k | .exiting k => some (.phase2 k)
  | .guest | .awaiting _ | .closing _ | .routeB .. | .finished .. => none

/-- A thread: one of the JVM's callers, or a virtual thread the guest's spawn has made. -/
inductive Tid where
  | caller (n : Nat)
  | vt (n : Nat)
  deriving DecidableEq

/-- A child: its `Phase1`, its pthread, and notes that no step reads: the virtual
thread made for it, whether `spawnPthread` has returned its `ChildModule`, whether
its `wasi_thread_start` has returned and whether a `closeChild` of it has. -/
structure Child where
  exports : Bool := false
  started : Future := .pending
  shutdown : Bool := false
  lifetime : Future := .pending
  detached : Bool := false
  vt : Option Nat := none
  handed : Bool := false
  startReturned : Bool := false
  closed : Bool := false

/-- The threads, the lock of the main instance, and the children by their numbers. -/
structure Sys where
  stack : Tid → List Frame := fun _ => []
  mainLock : Option Tid := none
  next : Nat := 0
  children : Nat → Child := fun _ => {}
  nextVt : Nat := 0
  delegatedSpawns : Nat := 0

/-- The steps of the threads `t`, and what is done for a child `k`. -/
inductive Label where
  /-- Guest code is called, by a caller or from a callback. -/
  | enter (t : Tid)
  | leave (t : Tid)
  /-- `spawnPthread`, as far as `pthread_create`. -/
  | spawn (t : Tid)
  /-- `pthread_create` calls `thread-spawn`; `ok` is false when route A throws, which it returns as -1. -/
  | threadSpawn (t : Tid) (ok : Bool)
  /-- `pthread_create` fails without it. -/
  | refuse (t : Tid)
  /-- `pthread_create` returns 0. -/
  | create (t : Tid)
  /-- It does, and `free(pt)` throws. -/
  | freeThrows (t : Tid)
  | started (t : Tid)
  /-- `started.get` throws: the worker's exception, or its time is up. -/
  | startedThrows (t : Tid) (timeout : Bool)
  /-- The guest starts a thread of its own. -/
  | guestSpawn (t : Tid)
  /-- `wasi_thread_start` calls slot 0. -/
  | slot0 (t : Tid)
  /-- `phase.started.complete(Unit)`. -/
  | complete (t : Tid)
  /-- `phase.shutdown.join()` returns. -/
  | wake (t : Tid)
  /-- `wasi_thread_start` returns, or a trap leaves it. -/
  | startReturns (t : Tid)
  | trap (t : Tid)
  /-- `lifetime` is completed. -/
  | finish (t : Tid)
  /-- `lifetime.whenComplete`. -/
  | propagate (k : Nat)
  /-- `closeChild`, as far as `lifetime.get`. -/
  | close (t : Tid) (k : Nat)
  | closed (t : Tid)
  | closeThrows (t : Tid) (timeout : Bool)

namespace Sys

/-- Another stack of a thread. -/
def setStack (s : Sys) (t : Tid) (stack : List Frame) : Sys := { s with stack := Function.update s.stack t stack }

/-- Another state of a child. -/
def setChild (s : Sys) (k : Nat) (child : Child) : Sys := { s with children := Function.update s.children k child }

/-- What is bound on a thread: by the innermost call that binds anything. -/
def childCallbackScope (s : Sys) (t : Tid) : Option SpawnPhase := (s.stack t).findSome? Frame.scope

/-- A new virtual thread. -/
def start (s : Sys) (frame : Frame) : Sys :=
  { s.setStack (.vt s.nextVt) [frame] with nextVt := s.nextVt + 1 }

/-- Route A: the child is built and its thread made. -/
def routeA (s : Sys) (k : Nat) : Sys :=
  (s.setChild k { s.children k with exports := true, vt := some s.nextVt }).start (.starting k)

/-- Route B, as far as the detach; `pthread_detach` fails for a thread that is detached. -/
def routeB (s : Sys) (t : Tid) (k : Nat) : Sys :=
  if (s.children k).detached then s.setStack t [.finished k true]
  else (s.setChild k { s.children k with detached := true }).setStack t (.routeB k false :: s.stack t)

/-- `SpawnWorkerHandle.apply`. -/
def apply (s : Sys) (t : Tid) (ok : Bool) : Sys :=
  match s.childCallbackScope t with
  | none => { s with delegatedSpawns := s.delegatedSpawns + 1 }.start .guest
  | some (.phase1 k) => if ok then s.routeA k else s
  | some (.phase2 k) => s.routeB t k

/-- JVM code may be called here: an idle caller, or a callback of guest code. -/
def ready (s : Sys) : Tid → Bool
  | .caller n => match s.stack (.caller n) with
    | [] | .guest :: _ => true
    | _ => false
  | .vt n => match s.stack (.vt n) with
    | .guest :: _ => true
    | _ => false

end Sys

/-- One step; none where it is not the next one. -/
def step (s : Sys) : Label → Option Sys
  | .enter t => if s.ready t then some (s.setStack t (.guest :: s.stack t)) else none
  | .leave t => match s.stack t with
    | .guest :: rest => some (s.setStack t rest)
    | _ => none
  | .spawn t =>
    if s.ready t ∧ s.mainLock = none then
      some { s.setStack t (.creating s.next :: s.stack t) with mainLock := some t, next := s.next + 1 }
    else none
  | .threadSpawn t ok => match s.stack t with
    | .creating k :: rest =>
      let s' := s.apply t ok
      -- A negative id makes `pthread_create` fail, and `spawnPthread` throw.
      some (if ok then s'.setStack t (.created k :: rest) else { s'.setStack t rest with mainLock := none })
    | _ => none
  | .refuse t => match s.stack t with
    | .creating _ :: rest => some { s.setStack t rest with mainLock := none }
    | _ => none
  | .create t => match s.stack t with
    | .created k :: rest =>
      some { s.setStack t (if (s.children k).exports then .awaiting k :: rest else rest) with mainLock := none }
    | _ => none
  | .freeThrows t => match s.stack t with
    | .created _ :: rest => some { s.setStack t rest with mainLock := none }
    | _ => none
  | .started t => match s.stack t with
    | .awaiting k :: rest =>
      if (s.children k).started = .normal then
        some ((s.setChild k { s.children k with handed := true }).setStack t rest)
      else none
    | _ => none
  | .startedThrows t timeout => match s.stack t with
    | .awaiting k :: rest =>
      if timeout ∨ (s.children k).started = .exceptional then some (s.setStack t rest) else none
    | _ => none
  | .guestSpawn t => match s.stack t with
    | .guest :: _ => some (s.apply t true)
    | _ => none
  | .slot0 t => match s.stack t with
    | .starting _ :: _ => some (s.apply t true)
    | _ => none
  | .complete t => match s.stack t with
    | .routeB k false :: rest =>
      some ((s.setChild k { s.children k with started := (s.children k).started.complete .normal }).setStack t
        (.routeB k true :: rest))
    | _ => none
  | .wake t => match s.stack t with
    | .routeB k true :: .starting j :: rest =>
      if (s.children k).shutdown then some (s.setStack t (.exiting j :: rest)) else none
    | _ => none
  | .startReturns t => match s.stack t with
    | [.exiting k] => some ((s.setChild k { s.children k with startReturned := true }).setStack t [.finished k false])
    | _ => none
  | .trap t => match s.stack t with
    | [.starting k] | [.exiting k] => some (s.setStack t [.finished k true])
    | _ => none
  | .finish t => match s.stack t with
    | [.finished k threw] =>
      some ((s.setChild k { s.children k with
        lifetime := (s.children k).lifetime.complete (if threw then .exceptional else .normal) }).setStack t [])
    | _ => none
  | .propagate k =>
    if (s.children k).lifetime = .exceptional then
      some (s.setChild k { s.children k with started := (s.children k).started.complete .exceptional })
    else none
  | .close t k =>
    if s.ready t ∧ (s.children k).handed then
      some ((s.setChild k { s.children k with shutdown := true }).setStack t (.closing k :: s.stack t))
    else none
  | .closed t => match s.stack t with
    | .closing k :: rest =>
      if (s.children k).lifetime = .normal then
        some ((s.setChild k { s.children k with closed := true }).setStack t rest)
      else none
    | _ => none
  | .closeThrows t timeout => match s.stack t with
    | .closing k :: rest =>
      if timeout ∨ (s.children k).lifetime = .exceptional then some (s.setStack t rest) else none
    | _ => none

/-! ## What is claimed -/

/-- A child that was handed out is detached and started; a worker that has come to
route B is in it until its own `shutdown` is complete; and behind a `closeChild`
that returned, `wasi_thread_start` has. -/
structure Handshake (s : Sys) : Prop where
  handed : ∀ k, (s.children k).handed = true → (s.children k).detached = true ∧ (s.children k).started = .normal
  asleep : ∀ k, (s.children k).detached = true → (s.children k).shutdown = false →
    ∃ n joining, (s.children k).vt = some n ∧ s.stack (.vt n) = [.routeB k joining, .starting k]
  ended : ∀ k, (s.children k).closed = true → (s.children k).startReturned = true

/-- Every call of `thread-spawn` finds its own scope: the guest's none, `spawnPthread`'s and a worker's
the one of their child. -/
def Routed (s : Sys) : Label → Prop
  | .guestSpawn t => ∀ rest, s.stack t = .guest :: rest → s.childCallbackScope t = none
  | .threadSpawn t _ => ∀ k rest, s.stack t = .creating k :: rest → s.childCallbackScope t = some (.phase1 k)
  | .slot0 t => ∀ k rest, s.stack t = .starting k :: rest → s.childCallbackScope t = some (.phase2 k)
  | _ => True

/-! ## The invariant -/

/-- The calls that are no worker's. -/
def Frame.calls : Frame → Bool
  | .guest | .creating _ | .created _ | .awaiting _ | .closing _ => true
  | .starting _ | .routeB .. | .exiting _ | .finished .. => false

/-- On a thread that is no worker everything but the innermost call is guest code. -/
def CallerStack : List Frame → Prop
  | [] => True
  | f :: rest => f.calls = true ∧ ∀ g ∈ rest, g = .guest

/-- How far a worker is, against its child. -/
def Works (k : Nat) (c : Child) : List Frame → Prop
  | [.starting j] => j = k ∧ c.started = .pending ∧ c.detached = false ∧ c.lifetime = .pending
  | [.routeB j joining, .starting i] =>
    j = k ∧ i = k ∧ c.detached = true ∧ c.lifetime = .pending ∧ c.started = if joining then .normal else .pending
  | [.exiting j] =>
    j = k ∧ c.detached = true ∧ c.started = .normal ∧ c.shutdown = true ∧ c.lifetime = .pending
  | [.finished j threw] =>
    j = k ∧ c.lifetime = .pending ∧ (c.started = .normal → c.detached = true) ∧
      (c.detached = true → c.shutdown = true) ∧ (threw = false → c.startReturned = true)
  | [] =>
    c.lifetime ≠ .pending ∧ (c.started = .normal → c.detached = true) ∧ (c.detached = true → c.shutdown = true) ∧
      (c.lifetime = .normal → c.startReturned = true)
  | _ => False

/-- Which stacks there are: those of callers, and those of workers against their children. -/
structure Inv (s : Sys) : Prop where
  caller : ∀ n, CallerStack (s.stack (.caller n))
  vt : ∀ n, (∃ k, (s.children k).vt = some n) ∨ CallerStack (s.stack (.vt n))
  fresh : ∀ n, s.nextVt ≤ n → s.stack (.vt n) = []
  works : ∀ k n, (s.children k).vt = some n → n < s.nextVt ∧ Works k (s.children k) (s.stack (.vt n))
  vt_inj : ∀ j k n, (s.children j).vt = some n → (s.children k).vt = some n → j = k
  unmade : ∀ k, (s.children k).vt = none → (s.children k).started = .pending ∧ (s.children k).lifetime = .pending ∧
    (s.children k).detached = false
  handed : ∀ k, (s.children k).handed = true → (s.children k).started = .normal
  closed : ∀ k, (s.children k).closed = true → (s.children k).lifetime = .normal
  next : ∀ k, s.next ≤ k → (s.children k).vt = none
  locked : ∀ t k rest, s.stack t = .creating k :: rest ∨ s.stack t = .created k :: rest → s.mainLock = some t
  creating : ∀ t k rest, s.stack t = .creating k :: rest → (s.children k).vt = none ∧ k < s.next

theorem inv_start : Inv {} where
  caller _ := trivial
  vt _ := .inr trivial
  fresh _ _ := rfl
  works _ _ h := by cases h
  vt_inj _ _ _ h := by cases h
  unmade _ _ := ⟨rfl, rfl, rfl⟩
  handed _ h := by cases h
  closed _ h := by cases h
  next _ _ := rfl
  locked _ _ _ h := by simp at h
  creating _ _ _ h := by cases h

/-- A worker that has completed `started` is detached. -/
theorem Works.of_started {k : Nat} {c : Child} {st : List Frame} (h : Works k c st) (hs : c.started = .normal) :
    c.detached = true := by
  unfold Works at h
  split at h
  · rw [hs] at h; exact absurd h.2.1 (by simp)
  · exact h.2.2.1
  · exact h.2.1
  · exact h.2.2.1 hs
  · exact h.2.1 hs
  · exact h.elim

/-- One that is detached is in route B, or past its `shutdown`. -/
theorem Works.of_detached {k : Nat} {c : Child} {st : List Frame} (h : Works k c st) (hd : c.detached = true)
    (hsh : c.shutdown = false) : ∃ joining, st = [.routeB k joining, .starting k] := by
  unfold Works at h
  split at h
  · rw [hd] at h; exact absurd h.2.2.1 (by simp)
  · obtain ⟨rfl, rfl, -⟩ := h; exact ⟨_, rfl⟩
  · rw [hsh] at h; exact absurd h.2.2.2.1 (by simp)
  · rw [h.2.2.2.1 hd] at hsh; cases hsh
  · rw [h.2.2.1 hd] at hsh; cases hsh
  · exact h.elim

theorem Works.routeB {k j : Nat} {c : Child} {joining : Bool} {rest : List Frame}
    (h : Works k c (.routeB j joining :: rest)) : j = k ∧ rest = [.starting k] ∧ c.detached = true ∧
      c.lifetime = .pending ∧ c.started = if joining then .normal else .pending := by
  match rest, h with
  | [.starting i], ⟨hj, hi, h⟩ => exact ⟨hj, by rw [hi], h⟩

/-- Behind its `lifetime` a worker is gone. -/
theorem Works.ended {k : Nat} {c : Child} {st : List Frame} (h : Works k c st) (hl : c.lifetime ≠ .pending) :
    st = [] ∧ (c.started = .normal → c.detached = true) ∧ (c.detached = true → c.shutdown = true) ∧
      (c.lifetime = .normal → c.startReturned = true) := by
  unfold Works at h
  split at h
  · exact absurd h.2.2.2 hl
  · exact absurd h.2.2.2.1 hl
  · exact absurd h.2.2.2.2 hl
  · exact absurd h.2.1 hl
  · exact ⟨rfl, h.2⟩
  · exact h.elim

theorem Inv.handshake {s : Sys} (hi : Inv s) : Handshake s := by
  have hmade : ∀ k, (s.children k).started = .normal ∨ (s.children k).lifetime = .normal ∨
      (s.children k).detached = true → ∃ n, (s.children k).vt = some n := by
    intro k hk
    cases hvt : (s.children k).vt with
    | some n => exact ⟨n, rfl⟩
    | none =>
      obtain ⟨hs, hl, hd⟩ := hi.unmade k hvt
      rw [hs, hl, hd] at hk
      simp at hk
  refine ⟨fun k hh => ?_, fun k hd hsh => ?_, fun k hc => ?_⟩
  · have hs := hi.handed k hh
    obtain ⟨n, hn⟩ := hmade k (.inl hs)
    exact ⟨(hi.works k n hn).2.of_started hs, hs⟩
  · obtain ⟨n, hn⟩ := hmade k (.inr (.inr hd))
    obtain ⟨joining, hst⟩ := (hi.works k n hn).2.of_detached hd hsh
    exact ⟨n, joining, hn, hst⟩
  · have hl := hi.closed k hc
    obtain ⟨n, hn⟩ := hmade k (.inr (.inl hl))
    exact ((hi.works k n hn).2.ended (by rw [hl]; simp)).2.2.2 hl

/-! ## Scopes -/

theorem findSome_guest {rest : List Frame} (h : ∀ g ∈ rest, g = .guest) : rest.findSome? Frame.scope = none := by
  rw [List.findSome?_eq_none_iff]
  intro g hg
  rw [h g hg]
  rfl

/-- A call that is no worker's is on no worker's stack. -/
theorem Works.not_calls {k : Nat} {c : Child} {f : Frame} {rest : List Frame} (h : Works k c (f :: rest)) :
    f.calls = false := by
  unfold Works at h
  split at h <;> first | (next he => cases he; rfl) | (next he => cases he) | exact h.elim

theorem Inv.callerStack {s : Sys} (hi : Inv s) {t : Tid} {f : Frame} {rest : List Frame} (hst : s.stack t = f :: rest)
    (hf : f.calls = true) : (∀ n, t = .vt n → ∀ k, (s.children k).vt ≠ some n) ∧ ∀ g ∈ rest, g = .guest := by
  have hown : ∀ n, t = .vt n → ∀ k, (s.children k).vt ≠ some n := by
    rintro n rfl k hk
    have hw := (hi.works k n hk).2
    rw [hst] at hw
    rw [hw.not_calls] at hf
    cases hf
  refine ⟨hown, ?_⟩
  cases t with
  | caller n =>
    have hc := hi.caller n
    rw [hst] at hc
    exact hc.2
  | vt n =>
    rcases hi.vt n with ⟨k, hk⟩ | hc
    · exact absurd hk (hown n rfl k)
    · rw [hst] at hc
      exact hc.2

/-- A call of a worker is on the stack of its child's thread. -/
theorem Inv.worker {s : Sys} (hi : Inv s) {t : Tid} {f : Frame} {rest : List Frame} (hst : s.stack t = f :: rest)
    (hf : f.calls = false) : ∃ n k, t = .vt n ∧ (s.children k).vt = some n ∧ Works k (s.children k) (f :: rest) := by
  cases t with
  | caller n =>
    have hc := hi.caller n
    rw [hst] at hc
    rw [hc.1] at hf
    cases hf
  | vt n =>
    rcases hi.vt n with ⟨k, hk⟩ | hc
    · exact ⟨n, k, rfl, hk, hst ▸ (hi.works k n hk).2⟩
    · rw [hst] at hc
      rw [hc.1] at hf
      cases hf

theorem Inv.routed {s : Sys} (hi : Inv s) (l : Label) : Routed s l := by
  cases l with
  | guestSpawn t =>
    intro rest hst
    rw [Sys.childCallbackScope, hst, List.findSome?_cons_of_isNone rfl]
    exact findSome_guest (hi.callerStack hst rfl).2
  | threadSpawn t ok =>
    intro k rest hst
    rw [Sys.childCallbackScope, hst]
    rfl
  | slot0 t =>
    intro k rest hst
    rw [Sys.childCallbackScope, hst]
    rfl
  | _ => trivial

/-! ## Steps -/

/-- What a caller's step may do to a child. -/
structure Kept (c c' : Child) : Prop where
  vt : c'.vt = c.vt
  started : c'.started = c.started
  lifetime : c'.lifetime = c.lifetime
  detached : c'.detached = c.detached
  startReturned : c'.startReturned = c.startReturned
  shutdown : c.shutdown = true → c'.shutdown = true
  handed : c'.handed = true → c.handed = true ∨ c.started = .normal
  closed : c'.closed = true → c.closed = true ∨ c.lifetime = .normal

theorem Kept.refl (c : Child) : Kept c c := ⟨rfl, rfl, rfl, rfl, rfl, id, .inl, .inl⟩

theorem Works.kept {k : Nat} {c c' : Child} {st : List Frame} (h : Works k c st) (hk : Kept c c') : Works k c' st := by
  unfold Works at h ⊢
  split at h
  · rw [hk.started, hk.lifetime, hk.detached]; exact h
  · rw [hk.started, hk.lifetime, hk.detached]; exact h
  · rw [hk.started, hk.lifetime, hk.detached]
    exact ⟨h.1, h.2.1, h.2.2.1, hk.shutdown h.2.2.2.1, h.2.2.2.2⟩
  · rw [hk.started, hk.lifetime, hk.detached, hk.startReturned]
    exact ⟨h.1, h.2.1, h.2.2.1, fun hd => hk.shutdown (h.2.2.2.1 hd), h.2.2.2.2⟩
  · rw [hk.started, hk.lifetime, hk.detached, hk.startReturned]
    exact ⟨h.1, h.2.1, fun hd => hk.shutdown (h.2.2.1 hd), h.2.2.2⟩
  · exact h.elim

section
variable {s s' : Sys} {t : Tid} {st : List Frame} {k : Nat} {c : Child}

/-- A step of a thread that is no worker. -/
theorem Inv.callerStep (hi : Inv s) (hstack : s'.stack = Function.update s.stack t st)
    (hchildren : s'.children = Function.update s.children k c) (hnextVt : s'.nextVt = s.nextVt)
    (hnext : s.next ≤ s'.next) (hown : ∀ n, t = .vt n → n < s.nextVt ∧ ∀ j, (s.children j).vt ≠ some n)
    (hst : CallerStack st) (hc : Kept (s.children k) c)
    (hmain : ∀ u, u ≠ t → s.mainLock = some u → s'.mainLock = some u)
    (hlocked : ∀ j rest, st = .creating j :: rest ∨ st = .created j :: rest → s'.mainLock = some t)
    (hcreating : ∀ j rest, st = .creating j :: rest → (s.children j).vt = none ∧ j < s'.next) : Inv s' := by
  have same : s'.stack t = st := by rw [hstack, Function.update_self]
  have other : ∀ u, u ≠ t → s'.stack u = s.stack u := fun u hu => by rw [hstack, Function.update_of_ne hu]
  have kept : ∀ j, Kept (s.children j) (s'.children j) := by
    intro j
    rw [hchildren]
    rcases eq_or_ne j k with rfl | hne
    · rw [Function.update_self]; exact hc
    · rw [Function.update_of_ne hne]; exact Kept.refl _
  refine ⟨fun n => ?_, fun n => ?_, fun n hn => ?_, fun j n hj => ?_, fun i j n hi' hj => ?_, fun j hj => ?_,
    fun j hj => ?_, fun j hj => ?_, fun j hj => ?_, fun u j rest hu => ?_, fun u j rest hu => ?_⟩
  · rcases eq_or_ne (.caller n) t with rfl | hne
    · rw [same]; exact hst
    · rw [other _ hne]; exact hi.caller n
  · rcases eq_or_ne (.vt n) t with rfl | hne
    · rw [same]; exact .inr hst
    · rw [other _ hne]
      rcases hi.vt n with ⟨j, hj⟩ | hc
      · exact .inl ⟨j, by rw [(kept j).vt]; exact hj⟩
      · exact .inr hc
  · rw [hnextVt] at hn
    have hne : Tid.vt n ≠ t := by
      rintro rfl
      exact absurd (hown n rfl).1 (Nat.not_lt.mpr hn)
    rw [other _ hne]
    exact hi.fresh n hn
  · rw [(kept j).vt] at hj
    have hne : Tid.vt n ≠ t := by
      rintro rfl
      exact (hown n rfl).2 j hj
    rw [other _ hne, hnextVt]
    exact ⟨(hi.works j n hj).1, (hi.works j n hj).2.kept (kept j)⟩
  · rw [(kept i).vt] at hi'
    rw [(kept j).vt] at hj
    exact hi.vt_inj i j n hi' hj
  · rw [(kept j).vt] at hj
    rw [(kept j).started, (kept j).lifetime, (kept j).detached]
    exact hi.unmade j hj
  · rw [(kept j).started]
    exact ((kept j).handed hj).elim (hi.handed j) id
  · rw [(kept j).lifetime]
    exact ((kept j).closed hj).elim (hi.closed j) id
  · rw [(kept j).vt]
    exact hi.next j (Nat.le_trans hnext hj)
  · rcases eq_or_ne u t with rfl | hne
    · rw [same] at hu; exact hlocked j rest hu
    · rw [other u hne] at hu; exact hmain u hne (hi.locked u j rest hu)
  · rw [(kept j).vt]
    rcases eq_or_ne u t with rfl | hne
    · rw [same] at hu; exact hcreating j rest hu
    · rw [other u hne] at hu
      obtain ⟨hvt, hlt⟩ := hi.creating u j rest hu
      exact ⟨hvt, Nat.lt_of_lt_of_le hlt hnext⟩

/-- A step of a worker. -/
theorem Inv.workerStep (hi : Inv s) (st : List Frame) {n : Nat} (hvt : (s.children k).vt = some n)
    (hcvt : c.vt = (s.children k).vt) (hw : Works k c st) (hhanded : c.handed = true → c.started = .normal)
    (hclosed : c.closed = true → c.lifetime = .normal) :
    Inv ((s.setChild k c).setStack (.vt n) st) := by
  have same : ((s.setChild k c).setStack (.vt n) st).stack (.vt n) = st := Function.update_self ..
  have other : ∀ u, u ≠ .vt n → ((s.setChild k c).setStack (.vt n) st).stack u = s.stack u :=
    fun u hu => Function.update_of_ne hu ..
  have child : ((s.setChild k c).setStack (.vt n) st).children k = c := Function.update_self ..
  have childs : ∀ j, j ≠ k → ((s.setChild k c).setStack (.vt n) st).children j = s.children j :=
    fun j hj => Function.update_of_ne hj ..
  have vts : ∀ j, (((s.setChild k c).setStack (.vt n) st).children j).vt = (s.children j).vt := by
    intro j
    rcases eq_or_ne j k with rfl | hne
    · rw [child, hcvt]
    · rw [childs j hne]
  -- A worker is in no `pthread_create`.
  have notCreating : ∀ u j rest, ((s.setChild k c).setStack (.vt n) st).stack u = .creating j :: rest ∨
      ((s.setChild k c).setStack (.vt n) st).stack u = .created j :: rest → u ≠ .vt n := by
    rintro u j rest hu rfl
    rw [same] at hu
    rcases hu with hu | hu <;> (rw [hu] at hw; have hf := hw.not_calls; cases hf)
  refine ⟨fun m => hi.caller m, fun m => ?_, fun m hm => ?_, fun j m hj => ?_, fun i j m hi' hj => ?_, fun j hj => ?_,
    fun j hj => ?_, fun j hj => ?_, fun j hj => ?_, fun u j rest hu => ?_, fun u j rest hu => ?_⟩
  · rcases eq_or_ne m n with rfl | hne
    · exact .inl ⟨k, by rw [vts]; exact hvt⟩
    · rw [other (.vt m) (by simpa using hne)]
      rcases hi.vt m with ⟨j, hj⟩ | hc
      · exact .inl ⟨j, by rw [vts]; exact hj⟩
      · exact .inr hc
  · have hne : m ≠ n := by
      rintro rfl
      exact absurd (hi.works k m hvt).1 (Nat.not_lt.mpr hm)
    rw [other (.vt m) (by simpa using hne)]
    exact hi.fresh m hm
  · rw [vts] at hj
    refine ⟨(hi.works j m hj).1, ?_⟩
    rcases eq_or_ne j k with rfl | hne
    · rw [hvt] at hj
      cases hj
      rw [child, same]
      exact hw
    · have hmn : m ≠ n := by
        rintro rfl
        exact hne (hi.vt_inj j k m hj hvt)
      rw [childs j hne, other (.vt m) (by simpa using hmn)]
      exact (hi.works j m hj).2
  · rw [vts] at hi' hj
    exact hi.vt_inj i j m hi' hj
  · rw [vts] at hj
    have hne : j ≠ k := by
      rintro rfl
      rw [hvt] at hj
      cases hj
    rw [childs j hne]
    exact hi.unmade j hj
  · rcases eq_or_ne j k with rfl | hne
    · rw [child] at hj ⊢; exact hhanded hj
    · rw [childs j hne] at hj ⊢; exact hi.handed j hj
  · rcases eq_or_ne j k with rfl | hne
    · rw [child] at hj ⊢; exact hclosed hj
    · rw [childs j hne] at hj ⊢; exact hi.closed j hj
  · rw [vts]
    exact hi.next j hj
  · have hne := notCreating u j rest hu
    rw [other u hne] at hu
    exact hi.locked u j rest hu
  · have hne := notCreating u j rest (.inl hu)
    rw [other u hne] at hu
    rw [vts]
    exact hi.creating u j rest hu

/-- A thread of the guest's own. -/
theorem Inv.delegated (hi : Inv s) : Inv ({ s with delegatedSpawns := s.delegatedSpawns + 1 }.start .guest) := by
  set s' := { s with delegatedSpawns := s.delegatedSpawns + 1 }.start .guest
  have new : s'.stack (.vt s.nextVt) = [.guest] := Function.update_self ..
  have other : ∀ u, u ≠ .vt s.nextVt → s'.stack u = s.stack u := fun u hu => Function.update_of_ne hu ..
  have notNew : ∀ u j rest, s'.stack u = .creating j :: rest ∨ s'.stack u = .created j :: rest → u ≠ .vt s.nextVt := by
    rintro u j rest hu rfl
    rw [new] at hu
    simp at hu
  refine ⟨hi.caller, fun n => ?_, fun n hn => ?_, fun j n hj => ?_, hi.vt_inj, hi.unmade, hi.handed, hi.closed, hi.next,
    fun u j rest hu => ?_, fun u j rest hu => ?_⟩
  · rcases eq_or_ne n s.nextVt with rfl | hne
    · rw [new]
      exact .inr ⟨rfl, by simp⟩
    · rw [other (.vt n) (by simpa using hne)]
      exact hi.vt n
  · have hlt : s.nextVt < n := hn
    rw [other (.vt n) (by simp; omega)]
    exact hi.fresh n (Nat.le_of_lt hlt)
  · obtain ⟨hlt, hw⟩ := hi.works j n hj
    rw [other (.vt n) (by simp; omega)]
    exact ⟨Nat.lt_succ_of_lt hlt, hw⟩
  · rw [other u (notNew u j rest hu)] at hu
    exact hi.locked u j rest hu
  · rw [other u (notNew u j rest (.inl hu))] at hu
    exact hi.creating u j rest hu

/-- Route A: the thread of the child is made, and `thread-spawn` returns its id. -/
theorem Inv.routeA (hi : Inv s) {rest : List Frame} (hst : s.stack t = .creating k :: rest) :
    Inv ((s.routeA k).setStack t (.created k :: rest)) := by
  obtain ⟨hvt, hlt⟩ := hi.creating t k rest hst
  obtain ⟨hown, hguest⟩ := hi.callerStack hst rfl
  have hmain := hi.locked t k rest (.inl hst)
  have htnew : t ≠ .vt s.nextVt := by
    rintro rfl
    rw [hi.fresh _ (Nat.le_refl _)] at hst
    cases hst
  set s' := (s.routeA k).setStack t (.created k :: rest)
  have self : s'.stack t = .created k :: rest := Function.update_self ..
  have new : s'.stack (.vt s.nextVt) = [.starting k] :=
    (Function.update_of_ne htnew.symm ..).trans (Function.update_self ..)
  have other : ∀ u, u ≠ t → u ≠ .vt s.nextVt → s'.stack u = s.stack u := fun u hu hn =>
    (Function.update_of_ne hu ..).trans (Function.update_of_ne hn ..)
  have child : s'.children k = { s.children k with exports := true, vt := some s.nextVt } := Function.update_self ..
  have childs : ∀ j, j ≠ k → s'.children j = s.children j := fun j hj => Function.update_of_ne hj ..
  -- Nobody else is in a `pthread_create`: the lock is this thread's.
  have alone : ∀ u j rest', s'.stack u = .creating j :: rest' ∨ s'.stack u = .created j :: rest' →
      u = t ∧ s'.stack u ≠ .creating j :: rest' := by
    intro u j rest' hu
    rcases eq_or_ne u t with rfl | hne
    · exact ⟨rfl, by rw [self]; simp⟩
    · rcases eq_or_ne u (.vt s.nextVt) with rfl | hn
      · rw [new] at hu
        simp at hu
      · rw [other u hne hn] at hu
        have hu' := hi.locked u j rest' hu
        rw [hmain] at hu'
        exact absurd (Option.some.inj hu').symm hne
  refine ⟨fun n => ?_, fun n => ?_, fun n hn => ?_, fun j n hj => ?_, fun i j n hi' hj => ?_, fun j hj => ?_,
    fun j hj => ?_, fun j hj => ?_, fun j hj => ?_, fun u j rest' hu => ?_, fun u j rest' hu => ?_⟩
  · rcases eq_or_ne (.caller n) t with rfl | hne
    · rw [self]; exact ⟨rfl, hguest⟩
    · rw [other _ hne (by simp)]; exact hi.caller n
  · rcases eq_or_ne n s.nextVt with rfl | hnew
    · exact .inl ⟨k, by rw [child]⟩
    · rcases eq_or_ne (.vt n) t with rfl | hne
      · rw [self]; exact .inr ⟨rfl, hguest⟩
      · rw [other _ hne (by simpa using hnew)]
        rcases hi.vt n with ⟨j, hj⟩ | hc
        · have hjk : j ≠ k := by
            rintro rfl
            rw [hvt] at hj
            cases hj
          exact .inl ⟨j, by rw [childs j hjk]; exact hj⟩
        · exact .inr hc
  · have hlt' : s.nextVt < n := hn
    have hne : Tid.vt n ≠ t := by
      rintro rfl
      rw [hi.fresh n (Nat.le_of_lt hlt')] at hst
      cases hst
    rw [other _ hne (by simp; omega)]
    exact hi.fresh n (Nat.le_of_lt hlt')
  · rcases eq_or_ne j k with rfl | hjk
    · rw [child] at hj
      cases hj
      rw [new, child]
      obtain ⟨hs, hl, hd⟩ := hi.unmade j hvt
      exact ⟨Nat.lt_succ_self _, rfl, hs, hd, hl⟩
    · rw [childs j hjk] at hj ⊢
      obtain ⟨hn, hw⟩ := hi.works j n hj
      have hne : Tid.vt n ≠ t := by
        rintro rfl
        exact hown n rfl j hj
      rw [other _ hne (by simp; omega)]
      exact ⟨Nat.lt_succ_of_lt hn, hw⟩
  · have hold : ∀ j, (s'.children j).vt = some n → (j = k ∧ n = s.nextVt) ∨ (s.children j).vt = some n := by
      intro j hj
      rcases eq_or_ne j k with rfl | hjk
      · rw [child] at hj
        cases hj
        exact .inl ⟨rfl, rfl⟩
      · rw [childs j hjk] at hj
        exact .inr hj
    rcases hold i hi' with ⟨rfl, rfl⟩ | h <;> rcases hold j hj with ⟨rfl, hn⟩ | h'
    · rfl
    · exact absurd (hi.works j _ h').1 (Nat.lt_irrefl _)
    · subst hn
      exact absurd (hi.works i _ h).1 (Nat.lt_irrefl _)
    · exact hi.vt_inj i j n h h'
  · have hjk : j ≠ k := by
      rintro rfl
      rw [child] at hj
      cases hj
    rw [childs j hjk] at hj ⊢
    exact hi.unmade j hj
  · rcases eq_or_ne j k with rfl | hjk
    · rw [child] at hj ⊢; exact hi.handed j hj
    · rw [childs j hjk] at hj ⊢; exact hi.handed j hj
  · rcases eq_or_ne j k with rfl | hjk
    · rw [child] at hj ⊢; exact hi.closed j hj
    · rw [childs j hjk] at hj ⊢; exact hi.closed j hj
  · have hjk : j ≠ k := by
      rintro rfl
      exact absurd hlt (Nat.not_lt.mpr hj)
    rw [childs j hjk]
    exact hi.next j hj
  · rw [(alone u j rest' hu).1]
    exact hmain
  · exact absurd hu (alone u j rest' (.inl hu)).2

theorem setChild_self (s : Sys) (k : Nat) : s.setChild k (s.children k) = s := by
  simp [Sys.setChild]

/-- A thread that may call JVM code is no worker. -/
theorem Inv.ready (hi : Inv s) (hr : s.ready t = true) :
    (∀ n, t = .vt n → n < s.nextVt ∧ ∀ j, (s.children j).vt ≠ some n) ∧ ∀ g ∈ s.stack t, g = .guest := by
  have hguest : ∀ rest, s.stack t = .guest :: rest → ∀ g ∈ s.stack t, g = .guest := by
    intro rest hst
    rw [hst]
    simpa using (hi.callerStack hst rfl).2
  cases t with
  | caller n =>
    refine ⟨fun m hm => (by cases hm), ?_⟩
    simp only [Sys.ready] at hr
    split at hr
    · next hst => rw [hst]; simp
    · next hst => exact hguest _ hst
    · cases hr
  | vt n =>
    simp only [Sys.ready] at hr
    split at hr
    · next hst =>
      refine ⟨fun m hm => ?_, hguest _ hst⟩
      cases hm
      refine ⟨?_, (hi.callerStack hst rfl).1 n rfl⟩
      by_contra hge
      rw [hi.fresh n (Nat.le_of_not_lt hge)] at hst
      cases hst
    · cases hr

/-- A call that is no worker's, with the thread it is on. -/
theorem Inv.top (hi : Inv s) {f : Frame} {rest : List Frame} (hst : s.stack t = f :: rest) (hf : f.calls = true) :
    (∀ n, t = .vt n → n < s.nextVt ∧ ∀ j, (s.children j).vt ≠ some n) ∧ ∀ g ∈ rest, g = .guest := by
  obtain ⟨hown, hguest⟩ := hi.callerStack hst hf
  refine ⟨fun n hn => ⟨?_, hown n hn⟩, hguest⟩
  by_contra hge
  subst hn
  rw [hi.fresh n (Nat.le_of_not_lt hge)] at hst
  cases hst

theorem callerStack_of_guest {rest : List Frame} (h : ∀ g ∈ rest, g = .guest) : CallerStack rest := by
  cases rest with
  | nil => trivial
  | cons f rest =>
    rw [h f List.mem_cons_self]
    exact ⟨rfl, fun g hg => h g (List.mem_cons_of_mem _ hg)⟩

theorem not_creating_of_guest {rest : List Frame} (h : ∀ g ∈ rest, g = .guest) (j : Nat) (rest' : List Frame) :
    ¬ (rest = .creating j :: rest' ∨ rest = .created j :: rest') := by
  rintro (rfl | rfl)
  · have hg := h _ List.mem_cons_self
    cases hg
  · have hg := h _ List.mem_cons_self
    cases hg

/-- A call returns to guest code or to nothing, and the lock is kept by its owner, if that is another. -/
theorem Inv.pop (hi : Inv s) {f : Frame} {rest : List Frame} (hst : s.stack t = f :: rest) (hf : f.calls = true)
    (hc : Kept (s.children k) c) {m : Option Tid} (hmain : ∀ u, u ≠ t → s.mainLock = some u → m = some u) :
    Inv { (s.setChild k c).setStack t rest with mainLock := m } := by
  obtain ⟨hown, hguest⟩ := hi.top hst hf
  refine hi.callerStep rfl rfl rfl (Nat.le_refl _) hown (callerStack_of_guest hguest) hc hmain (fun j rest' h => ?_)
    fun j rest' h => ?_
  · exact absurd h (not_creating_of_guest hguest j rest')
  · exact absurd (.inl h) (not_creating_of_guest hguest j rest')

/-- A call ends that leaves its child and the lock as they are. -/
theorem Inv.callOver (hi : Inv s) {f : Frame} {rest : List Frame} (hst : s.stack t = f :: rest) (hf : f.calls = true) :
    Inv (s.setStack t rest) := by
  have hpop := hi.pop (k := 0) hst hf (Kept.refl _) (m := s.mainLock) fun _ _ hm => hm
  rwa [setChild_self] at hpop

/-- A call is made that waits, or runs guest code. -/
theorem Inv.push (hi : Inv s) {f : Frame} {rest : List Frame}
    (hown : ∀ n, t = .vt n → n < s.nextVt ∧ ∀ j, (s.children j).vt ≠ some n) (hguest : ∀ g ∈ rest, g = .guest)
    (hf : f = .guest ∨ f = .awaiting k ∨ f = .closing k) (hc : Kept (s.children k) c) {m : Option Tid}
    (hmain : ∀ u, u ≠ t → s.mainLock = some u → m = some u) :
    Inv { (s.setChild k c).setStack t (f :: rest) with mainLock := m } := by
  refine hi.callerStep rfl rfl rfl (Nat.le_refl _) hown ⟨?_, hguest⟩ hc hmain (fun j rest' h => ?_) fun j rest' h => ?_
  · rcases hf with rfl | rfl | rfl <;> rfl
  · rcases hf with rfl | rfl | rfl <;> simp at h
  · rcases hf with rfl | rfl | rfl <;> simp at h

/-- The lock of a `pthread_create` that is over was its thread's. -/
theorem Inv.unlocks (hi : Inv s) {r : List Frame} (hst : s.stack t = .creating k :: r ∨ s.stack t = .created k :: r)
    (u : Tid) (hu : u ≠ t) (hmain : s.mainLock = some u) : none = some u := by
  rw [hi.locked t k r hst] at hmain
  exact absurd (Option.some.inj hmain).symm hu

/-- A failed or refused `pthread_create`, or one whose exports are missing. -/
theorem Inv.fails (hi : Inv s) {f : Frame} {rest : List Frame} (hst : s.stack t = f :: rest)
    (hf : f = .creating k ∨ f = .created k) : Inv { s.setStack t rest with mainLock := none } := by
  have h : Inv { (s.setChild k (s.children k)).setStack t rest with mainLock := none } := by
    refine hi.pop hst (by rcases hf with rfl | rfl <;> rfl) (Kept.refl _) fun u hu hmain => ?_
    exact hi.unlocks (r := rest) (by rcases hf with rfl | rfl; exacts [.inl hst, .inr hst]) u hu hmain
  rwa [setChild_self] at h

theorem Inv.threadSpawn (hi : Inv s) {ok : Bool} (h : step s (.threadSpawn t ok) = some s') : Inv s' := by
  have hrouted := hi.routed (.threadSpawn t ok)
  simp only [step] at h
  split at h
  · next k rest hst =>
    cases h
    simp only [Sys.apply, hrouted k rest hst]
    cases ok with
    | true => exact hi.routeA hst
    | false => exact hi.fails hst (.inl rfl)
  · cases h

/-- Route B on the worker's own stack. -/
theorem Inv.slot0 (hi : Inv s) (h : step s (.slot0 t) = some s') : Inv s' := by
  have hrouted := hi.routed (.slot0 t)
  simp only [step] at h
  split at h
  · next k rest hst =>
    cases h
    obtain ⟨n, j, rfl, hvt, hw⟩ := hi.worker hst rfl
    obtain ⟨rfl, rfl, hs, hd, hl⟩ : rest = [] ∧ k = j ∧ (s.children j).started = .pending ∧
        (s.children j).detached = false ∧ (s.children j).lifetime = .pending := by
      cases rest with
      | nil => exact ⟨rfl, hw⟩
      | cons f rest => exact hw.elim
    simp only [Sys.apply, hrouted k [] hst, Sys.routeB, hd, Bool.false_eq_true, if_false, hst]
    exact hi.workerStep _ hvt rfl ⟨rfl, rfl, rfl, hl, hs⟩ (hi.handed k) (hi.closed k)
  · cases h

end

/-! ## The run -/

theorem Inv.step {s s' : Sys} {l : Label} (hi : Inv s) (h : step s l = some s') : Inv s' := by
  cases l with
  | enter t =>
    simp only [SpawnHandshake.step] at h
    split at h <;> cases h
    next hr =>
    obtain ⟨hown, hguest⟩ := hi.ready hr
    have hpush := hi.push (k := 0) hown hguest (.inl rfl) (Kept.refl _) fun _ _ hm => hm
    rwa [setChild_self] at hpush
  | leave t =>
    simp only [SpawnHandshake.step] at h
    split at h <;> cases h
    next hst => exact hi.callOver hst rfl
  | spawn t =>
    simp only [SpawnHandshake.step] at h
    split at h <;> cases h
    next hr =>
    obtain ⟨hown, hguest⟩ := hi.ready hr.1
    refine hi.callerStep (k := 0) rfl (Function.update_eq_self ..).symm rfl (Nat.le_succ _) hown ⟨rfl, hguest⟩
      (Kept.refl _) (fun u _ hm => ?_) (fun _ _ _ => rfl) fun j rest hj => ?_
    · rw [hr.2] at hm
      cases hm
    · cases hj
      exact ⟨hi.next _ (Nat.le_refl _), Nat.lt_succ_self _⟩
  | threadSpawn t ok => exact hi.threadSpawn h
  | refuse t =>
    simp only [SpawnHandshake.step] at h
    split at h <;> cases h
    next hst => exact hi.fails hst (.inl rfl)
  | create t =>
    simp only [SpawnHandshake.step] at h
    split at h <;> cases h
    next k rest hst =>
    split
    · obtain ⟨hown, hguest⟩ := hi.top hst rfl
      have hpush := hi.push (k := k) (m := none) hown hguest (.inr (.inl rfl)) (Kept.refl _) (hi.unlocks (.inr hst))
      rwa [setChild_self] at hpush
    · exact hi.fails hst (.inr rfl)
  | freeThrows t =>
    simp only [SpawnHandshake.step] at h
    split at h <;> cases h
    next hst => exact hi.fails hst (.inr rfl)
  | started t =>
    simp only [SpawnHandshake.step] at h
    split at h
    · next k rest hst =>
      split at h <;> cases h
      next hs =>
      exact hi.pop (c := { s.children k with handed := true }) hst rfl
        ⟨rfl, rfl, rfl, rfl, rfl, id, fun _ => .inr hs, .inl⟩ fun _ _ hm => hm
    · cases h
  | startedThrows t timeout =>
    simp only [SpawnHandshake.step] at h
    split at h
    · next k rest hst =>
      split at h <;> cases h
      exact hi.callOver hst rfl
    · cases h
  | guestSpawn t =>
    have hrouted := hi.routed (.guestSpawn t)
    simp only [SpawnHandshake.step] at h
    split at h <;> cases h
    next rest hst =>
    simp only [Sys.apply, hrouted rest hst]
    exact hi.delegated
  | slot0 t => exact hi.slot0 h
  | complete t =>
    simp only [SpawnHandshake.step] at h
    split at h <;> cases h
    next k rest hst =>
    obtain ⟨n, j, rfl, hvt, hw⟩ := hi.worker hst rfl
    obtain ⟨rfl, rfl, hd, hl, hs⟩ := hw.routeB
    refine hi.workerStep _ hvt rfl ⟨rfl, rfl, hd, hl, ?_⟩ (fun hh => ?_) (hi.closed k)
    · simp only [hs]
      rfl
    · simp only [hi.handed k hh, Future.complete]
  | wake t =>
    simp only [SpawnHandshake.step] at h
    split at h
    · next k j rest hst =>
      split at h <;> cases h
      next hsh =>
      obtain ⟨n, i, rfl, hvt, hw⟩ := hi.worker hst rfl
      obtain ⟨rfl, hrest, hd, hl, hs⟩ := hw.routeB
      cases hrest
      have hstep := hi.workerStep [.exiting k] hvt rfl ⟨rfl, hd, hs, hsh, hl⟩ (hi.handed k) (hi.closed k)
      rwa [setChild_self] at hstep
    · cases h
  | startReturns t =>
    simp only [SpawnHandshake.step] at h
    split at h <;> cases h
    next k hst =>
    obtain ⟨n, j, rfl, hvt, hw⟩ := hi.worker hst rfl
    obtain ⟨rfl, hd, hs, hsh, hl⟩ := hw
    exact hi.workerStep _ hvt rfl ⟨rfl, hl, fun _ => hd, fun _ => hsh, fun _ => rfl⟩ (hi.handed k) (hi.closed k)
  | trap t =>
    have htrap : ∀ {k n : Nat}, (s.children k).vt = some n → (s.children k).lifetime = .pending →
        ((s.children k).started = .normal → (s.children k).detached = true) →
        ((s.children k).detached = true → (s.children k).shutdown = true) →
        Inv (s.setStack (.vt n) [.finished k true]) := by
      intro k n hvt hl hs hd
      have hstep := hi.workerStep [.finished k true] hvt rfl ⟨rfl, hl, hs, hd, fun hf => by cases hf⟩ (hi.handed k)
        (hi.closed k)
      rwa [setChild_self] at hstep
    simp only [SpawnHandshake.step] at h
    split at h <;> cases h
    · next k hst =>
      obtain ⟨n, j, rfl, hvt, hw⟩ := hi.worker hst rfl
      obtain ⟨rfl, hs, hd, hl⟩ := hw
      refine htrap hvt hl (fun hn => ?_) fun hn => ?_
      · rw [hs] at hn; cases hn
      · rw [hd] at hn; cases hn
    · next k hst =>
      obtain ⟨n, j, rfl, hvt, hw⟩ := hi.worker hst rfl
      obtain ⟨rfl, hd, -, hsh, hl⟩ := hw
      exact htrap hvt hl (fun _ => hd) fun _ => hsh
  | finish t =>
    simp only [SpawnHandshake.step] at h
    split at h <;> cases h
    next k threw hst =>
    obtain ⟨n, j, rfl, hvt, hw⟩ := hi.worker hst rfl
    obtain ⟨rfl, hl, hs, hd, hret⟩ := hw
    refine hi.workerStep _ hvt rfl ?_ (hi.handed k) fun hc => ?_
    · simp only [hl, Future.complete]
      cases threw with
      | true => exact ⟨by simp, hs, hd, fun hn => by simp at hn⟩
      | false => exact ⟨by simp, hs, hd, fun _ => hret rfl⟩
    · have hn := hi.closed k hc
      rw [hl] at hn
      cases hn
  | propagate k =>
    simp only [SpawnHandshake.step] at h
    split at h <;> cases h
    next hl =>
    obtain ⟨n, hvt⟩ : ∃ n, (s.children k).vt = some n := by
      cases hvt : (s.children k).vt with
      | some n => exact ⟨n, rfl⟩
      | none => rw [(hi.unmade k hvt).2.1] at hl; cases hl
    obtain ⟨hst, hs, hd, hret⟩ := (hi.works k n hvt).2.ended (by rw [hl]; simp)
    have hstep : Inv ((s.setChild k { s.children k with
        started := (s.children k).started.complete .exceptional }).setStack (.vt n) []) := by
      refine hi.workerStep [] hvt rfl ⟨by rw [hl]; simp, fun hn => hs ?_, hd, hret⟩ (fun hh => ?_) (hi.closed k)
      · cases hst : (s.children k).started <;> simp [hst, Future.complete] at hn ⊢
      · simp only [hi.handed k hh, Future.complete]
    have hsame : ((s.setChild k { s.children k with
        started := (s.children k).started.complete .exceptional }).setStack (.vt n) []) =
        s.setChild k { s.children k with started := (s.children k).started.complete .exceptional } := by
      rw [← hst]
      simp [Sys.setStack, Sys.setChild]
    rwa [hsame] at hstep
  | close t k =>
    simp only [SpawnHandshake.step] at h
    split at h <;> cases h
    next hr =>
    obtain ⟨hown, hguest⟩ := hi.ready hr.1
    exact hi.push (c := { s.children k with shutdown := true }) hown hguest (.inr (.inr rfl))
      ⟨rfl, rfl, rfl, rfl, rfl, fun _ => rfl, .inl, .inl⟩ fun _ _ hm => hm
  | closed t =>
    simp only [SpawnHandshake.step] at h
    split at h
    · next k rest hst =>
      split at h <;> cases h
      next hl =>
      exact hi.pop (c := { s.children k with closed := true }) hst rfl
        ⟨rfl, rfl, rfl, rfl, rfl, id, .inl, fun _ => .inr hl⟩ fun _ _ hm => hm
    · cases h
  | closeThrows t timeout =>
    simp only [SpawnHandshake.step] at h
    split at h
    · next k rest hst =>
      split at h <;> cases h
      exact hi.callOver hst rfl
    · cases h

/-- **The handshake holds and the routes are not confused**, over every
interleaving of any callers, workers, traps, timeouts and spawns of the guest's own. -/
theorem spawn_run_handshake (labels : List Label) :
    EveryState step Handshake {} labels ∧ EveryStep step Routed {} labels := by
  have hstep : ∀ s l s', Inv s → True → step s l = some s' → Inv s' := fun _ _ _ hi _ hs => hi.step hs
  constructor
  · exact everyState_of_invariant hstep (fun _ hi => hi.handshake) inv_start everyStep_true
  · exact everyStep_of_invariant hstep (fun _ l hi _ => hi.routed l) inv_start everyStep_true

-- A worker is spawned from a callback of running SQL, the guest starts a thread of its own, and the worker is closed.
example : (run step {} [.enter (.caller 0), .spawn (.caller 0), .threadSpawn (.caller 0) true, .slot0 (.vt 0),
    .create (.caller 0), .complete (.vt 0), .started (.caller 0), .guestSpawn (.caller 0), .guestSpawn (.vt 1),
    .close (.caller 1) 0, .wake (.vt 0), .startReturns (.vt 0), .finish (.vt 0), .closed (.caller 1)]).map
    (fun s => ((s.children 0).handed, (s.children 0).closed, s.delegatedSpawns, s.stack (.caller 1))) =
      some (true, true, 2, []) := by decide +kernel

end SpawnHandshake

end Sqlol

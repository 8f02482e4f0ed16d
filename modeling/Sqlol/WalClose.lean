/-
`SqliteWorker.stop`, and `SqliteWal.close` over it.

A worker can execute SQL until its `closed` flag is set. `stop` sets it
under the worker's lock, so behind any call in flight; a `stop` out of a
callback of the worker's own statement, which the lock lets in, is left out.
It throws when the lock is not free within 60 s, and then the worker goes on;
it throws as well when the guest's close or `closeChild` does, and then the
worker is stopped all the same.

`SqliteWal.close` stops the writer and the readers one by one and closes the
runtime behind them; the first `stop` that throws ends that. The owner lock is
handed back in the `finally` block, on purpose: the ownership must not stay
behind when the clean-up fails.
-/
import Sqlol.Runs
import Mathlib.Logic.Function.Basic

namespace Sqlol

/-- A worker, as far as its closing goes. -/
structure SqliteWorker where
  closed : Bool := false
  /-- Some `run` is inside the lock. -/
  busy : Bool := false
  deriving DecidableEq

/-- How a `stop` call ends. -/
inductive StopEnd where
  | returns
  /-- The lock was not obtained: a statement was still running, or the thread was interrupted. -/
  | lockTimeout
  /-- `session.close()` or `closeChild` threw. -/
  | closeThrows
  deriving DecidableEq

namespace SqliteWorker

/-- The worker behind `stop`, and whether the call returned; a way for it to
end that the worker's state does not allow has no result. -/
def stop (w : SqliteWorker) : StopEnd → Option (SqliteWorker × Bool)
  | .returns => if w.busy then none else some ({ w with closed := true }, true)
  | .lockTimeout => some (w, false)
  | .closeThrows => if w.busy || w.closed then none else some ({ w with closed := true }, false)

/-- `run`: into the lock, past `check(!closed)`. -/
def enter (w : SqliteWorker) : Option SqliteWorker :=
  if w.busy || w.closed then none else some { w with busy := true }

/-- `run` gives the lock back. -/
def leave (w : SqliteWorker) : Option SqliteWorker := if w.busy then some { w with busy := false } else none

/-- No statement is inside, and none gets in any more. -/
def Stopped (w : SqliteWorker) : Prop := w.closed = true ∧ w.busy = false

theorem stop_returned {w w' : SqliteWorker} {e : StopEnd} (h : w.stop e = some (w', true)) : w'.Stopped := by
  cases e <;> simp only [stop] at h
  · split at h <;> cases h
    next hb => exact ⟨rfl, eq_false_of_ne_true hb⟩
  · cases h
  · split at h <;> cases h

section
variable {w w' : SqliteWorker} (hs : w.Stopped)
include hs

theorem Stopped.stop {e : StopEnd} {ok : Bool} (h : w.stop e = some (w', ok)) : w'.Stopped := by
  cases e <;> simp only [SqliteWorker.stop, hs.1, hs.2, Bool.or_true] at h <;> cases h
  · exact ⟨rfl, rfl⟩
  · exact hs

theorem Stopped.enter (h : w.enter = some w') : w'.Stopped := by
  simp only [SqliteWorker.enter, hs.1, Bool.or_true] at h
  cases h

theorem Stopped.leave (h : w.leave = some w') : w'.Stopped := by
  simp only [SqliteWorker.leave, hs.2] at h
  cases h

end

/-- A change of one worker that keeps it stopped. -/
theorem stopped_update {ws : Nat → SqliteWorker} {k : Nat} {w : SqliteWorker} (h : (ws k).Stopped → w.Stopped)
    (j : Nat) (hj : (ws j).Stopped) : (Function.update ws k w j).Stopped := by
  by_cases hjk : j = k
  · subst hjk; rw [Function.update_self]; exact h hj
  · rw [Function.update_of_ne hjk]; exact hj

end SqliteWorker

/-- What becomes of a runtime; `threw` notes that some `stop` of one of its
workers threw. -/
structure Runtime where
  wasiClosed : Bool := false
  lockReleased : Bool := false
  threw : Bool := false
  deriving DecidableEq

namespace SqliteWal

/-- Where a `close` call is: before the `k`-th of the writer and the readers,
in the `finally` block, or over. -/
inductive Pc where
  | idle
  | stopping (k : Nat)
  | unlocking
  | done
  deriving DecidableEq

/-- Worker 0 is the writer, 1 to `n` are the readers. -/
structure Sys where
  workers : Nat → SqliteWorker := fun _ => {}
  rt : Runtime := {}
  pc : Nat → Pc := fun _ => .idle

/-- The steps of the workers `w` and of the calls `c` of `close`. -/
inductive Label where
  | enter (w : Nat)
  | leave (w : Nat)
  | close (c : Nat)
  | stop (c : Nat) (e : StopEnd)
  | rtClose (c : Nat)
  | unlock (c : Nat)

/-- The call goes on at `p`. -/
def Sys.goto (s : Sys) (c : Nat) (p : Pc) : Sys := { s with pc := Function.update s.pc c p }

/-- Another state of a worker. -/
def Sys.setWorker (s : Sys) (k : Nat) (w : SqliteWorker) : Sys :=
  { s with workers := Function.update s.workers k w }

/-- One step; none where it is not the next one. -/
def step (n : Nat) (s : Sys) : Label → Option Sys
  | .enter k => (s.workers k).enter.map (s.setWorker k)
  | .leave k => (s.workers k).leave.map (s.setWorker k)
  | .close c => match s.pc c with
    | .idle => some (s.goto c (.stopping 0))
    | _ => none
  | .stop c e => match s.pc c with
    | .stopping k =>
      if k ≤ n then
        match (s.workers k).stop e with
        | none => none
        | some (w, true) => some ((s.setWorker k w).goto c (.stopping (k + 1)))
        | some (w, false) => some ({ s.setWorker k w with rt := { s.rt with threw := true } }.goto c .unlocking)
      else none
    | _ => none
  | .rtClose c => match s.pc c with
    | .stopping k =>
      if k = n + 1 then some ({ s with rt := { s.rt with wasiClosed := true } }.goto c .unlocking) else none
    | _ => none
  | .unlock c => match s.pc c with
    | .unlocking => some ({ s with rt := { s.rt with lockReleased := true } }.goto c .done)
    | _ => none

/-- No worker can execute SQL any more. -/
def Stopped (n : Nat) (s : Sys) : Prop := ∀ k ≤ n, (s.workers k).Stopped

/-- The runtime's files are closed behind the workers; so is the ownership
given up, unless a `stop` threw; and a `close` that is over has given it up. -/
structure Safe (n : Nat) (s : Sys) : Prop where
  wasi : s.rt.wasiClosed = true → Stopped n s
  lock : s.rt.lockReleased = true → s.rt.threw = false → Stopped n s
  released : ∀ c, s.pc c = .done → s.rt.lockReleased = true

/-- What a `close` call knows of the workers where it is. -/
def Pc.Knows (n : Nat) (s : Sys) : Pc → Prop
  | .stopping k => ∀ j < k, j ≤ n → (s.workers j).Stopped
  | .unlocking => s.rt.threw = false → Stopped n s
  | .done => s.rt.lockReleased = true
  | .idle => True

/-- Wasi and the lock are closed behind the workers, and each call knows which ones have stopped. -/
structure Inv (n : Nat) (s : Sys) : Prop where
  wasi : s.rt.wasiClosed = true → Stopped n s
  lock : s.rt.lockReleased = true → s.rt.threw = false → Stopped n s
  knows : ∀ c, (s.pc c).Knows n s

theorem inv_start (n : Nat) : Inv n {} where
  wasi h := by cases h
  lock h := by cases h
  knows _ := trivial

/-- What a call knows where it is. -/
theorem Inv.knows_at {n : Nat} {s : Sys} {c : Nat} {p : Pc} (hi : Inv n s) (hpc : s.pc c = p) : p.Knows n s :=
  hpc ▸ hi.knows c

/-- Workers that stay closed, and notes that stay made. -/
theorem Pc.Knows.mono {n : Nat} {s s' : Sys} {p : Pc} (h : p.Knows n s)
    (hw : ∀ k, (s.workers k).Stopped → (s'.workers k).Stopped)
    (ht : s.rt.threw = true → s'.rt.threw = true)
    (hl : s.rt.lockReleased = true → s'.rt.lockReleased = true) : p.Knows n s' := by
  cases p with
  | idle => trivial
  | stopping k => exact fun j hj hn => hw j (h j hj hn)
  | unlocking =>
    intro hf j hj
    refine hw j (h ?_ j hj)
    cases hs : s.rt.threw with
    | false => rfl
    | true => rw [ht hs] at hf; cases hf
  | done => exact hl h

/-- A call moves on, with workers that stay closed. -/
theorem Inv.advance {n : Nat} {s s' : Sys} (hi : Inv n s) {c : Nat} {p : Pc}
    (hpc : s'.pc = Function.update s.pc c p)
    (hw : ∀ k, (s.workers k).Stopped → (s'.workers k).Stopped)
    (ht : s.rt.threw = true → s'.rt.threw = true)
    (hl : s.rt.lockReleased = true → s'.rt.lockReleased = true)
    (hwasi : s'.rt.wasiClosed = true → Stopped n s')
    (hlock : s'.rt.lockReleased = true → s'.rt.threw = false → Stopped n s')
    (hp : p.Knows n s') : Inv n s' := by
  refine ⟨hwasi, hlock, fun d => ?_⟩
  rw [hpc]
  by_cases hdc : d = c
  · subst hdc; rw [Function.update_self]; exact hp
  · rw [Function.update_of_ne hdc]; exact (hi.knows d).mono hw ht hl

theorem Inv.setWorker {n : Nat} {s : Sys} (hi : Inv n s) {k : Nat} {w : SqliteWorker}
    (h : (s.workers k).Stopped → w.Stopped) : Inv n (s.setWorker k w) where
  wasi hwasi j hj := SqliteWorker.stopped_update h j (hi.wasi hwasi j hj)
  lock hlock ht j hj := SqliteWorker.stopped_update h j (hi.lock hlock ht j hj)
  knows c := (hi.knows c).mono (SqliteWorker.stopped_update h) id id

theorem Inv.step {n : Nat} {s s' : Sys} {l : Label} (hi : Inv n s) (h : step n s l = some s') : Inv n s' := by
  cases l with
  | enter k =>
    obtain ⟨w, hw, rfl⟩ := Option.map_eq_some_iff.mp h
    exact hi.setWorker (·.enter hw)
  | leave k =>
    obtain ⟨w, hw, rfl⟩ := Option.map_eq_some_iff.mp h
    exact hi.setWorker (·.leave hw)
  | close c =>
    simp only [SqliteWal.step] at h
    split at h <;> cases h
    exact hi.advance rfl (fun _ h => h) id id hi.wasi hi.lock fun j hj => absurd hj (Nat.not_lt_zero j)
  | stop c e =>
    simp only [SqliteWal.step] at h
    split at h
    · next k hpc =>
      have hknows := hi.knows_at hpc
      split at h
      · next hk =>
        split at h <;> cases h
        · next w hw =>
          have hi' := hi.setWorker (·.stop hw)
          refine hi'.advance rfl (fun _ h => h) id id hi'.wasi hi'.lock fun j hj hn => ?_
          by_cases hjk : j = k
          · subst hjk
            simp only [Sys.setWorker, Sys.goto, Function.update_self]
            exact SqliteWorker.stop_returned hw
          · exact SqliteWorker.stopped_update (·.stop hw) j (hknows j (by omega) hn)
        · next w hw =>
          have hi' := hi.setWorker (·.stop hw)
          exact hi'.advance rfl (fun _ h => h) (fun _ => rfl) id hi'.wasi (fun _ hf => nomatch hf)
            fun hf => nomatch hf
      · cases h
    · cases h
  | rtClose c =>
    simp only [SqliteWal.step] at h
    split at h
    · next k hpc =>
      have hknows := hi.knows_at hpc
      split at h <;> cases h
      next hk =>
      have hstopped : Stopped n s := fun j hj => hknows j (by omega) hj
      exact hi.advance rfl (fun _ h => h) id id (fun _ => hstopped) hi.lock fun _ => hstopped
    · cases h
  | unlock c =>
    simp only [SqliteWal.step] at h
    split at h <;> cases h
    next hpc =>
    have hknows := hi.knows_at hpc
    exact hi.advance rfl (fun _ h => h) id (fun _ => rfl) hi.wasi (fun _ ht => hknows ht) rfl

/-- Every run of any number of `close` calls beside any statements. -/
theorem close_run_safe (n : Nat) (labels : List Label) : EveryState (step n) (Safe n) {} labels :=
  everyState_of_invariant (fun _ _ _ hi _ hs => hi.step hs)
    (fun _ hi => ⟨hi.wasi, hi.lock, fun _ hc => hi.knows_at hc⟩)
    (inv_start n) everyStep_true

end SqliteWal

end Sqlol

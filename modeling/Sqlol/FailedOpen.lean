/-
What a failed open leaves behind: `SqliteDataSource.openRuntime`, the
constructor of `SqliteDataSource` over it, and `SqliteWal.open`, each thrown out
of at any of its calls.

`DbOwnerLock.acquire` gives back the lock of an attempt that did not read its token
back, but not that of one whose `write` or `force` throws. `openRuntime` gives the owner
lock back when anything behind it throws, but not the runtime it may have made by then;
and `SqliteWal.open` has no clean-up for what comes behind `openRuntime`. So a failed open
leaves nothing behind exactly when it failed before there was a runtime and at a place
where the lock is not held or is given back (`failed_open_iff`).

A channel that holds no lock of the sidecar is not counted.
-/
import Sqlol.Prog

namespace Sqlol

namespace FailedOpen

/-- The calls that may throw. Those of `acquire` have the number of attempts behind
theirs; worker 0 is the writer, 1 to `n` are the readers. -/
inductive Site where
  | openSidecar (k : Nat)
  | tryLock (k : Nat)
  | write (k : Nat)
  | force (k : Nat)
  | createDirectories
  | newRuntime
  | openDb
  | exec
  | closeDb
  | spawn (k : Nat)
  deriving DecidableEq

/-- How an open turns out. -/
structure Env where
  throws : Site → Bool
  /-- The sidecar that the attempt opened was deleted before it was locked. -/
  orphaned : Nat → Bool := fun _ => false
  /-- The attempt does not read its own token back; what the reading throws is caught. -/
  unread : Nat → Bool := fun _ => false
  /-- Neither `release` nor the `close` of the channel gives the attempt's lock back. -/
  stuck : Nat → Bool := fun _ => false
  /-- The same of `ownerLock.close()`. -/
  stuckClose : Bool := false

/-- What is held: the lock of the sidecar the path names, runtimes made and not closed,
workers spawned and not stopped. -/
structure World where
  lock : Bool := false
  runtimes : Nat := 0
  workers : Nat := 0
  deriving DecidableEq

variable (env : Env)

/-- A call that may throw. -/
def call (site : Site) : Prog World Unit := Prog.throwIf (env.throws site)

/-- One attempt of `acquire`: whether the lock is ours. A lock on a deleted sidecar is in
nobody's way. -/
def attempt (k : Nat) : Prog World Bool := do
  call env (.openSidecar k)
  call env (.tryLock k)
  if env.orphaned k then do
    call env (.write k)
    call env (.force k)
    pure false
  else do
    -- It has an owner, in this JVM or in another process.
    Prog.throwIf (← Prog.get).lock
    Prog.modify ({ · with lock := true })
    call env (.write k)
    call env (.force k)
    if env.unread k then do
      Prog.modify ({ · with lock := env.stuck k })
      pure false
    else pure true

/-- `repeat(n)`, and the exception behind it. -/
def acquireFrom : Nat → Prog World Unit
  | 0 => Prog.throw
  | n + 1 => do
    if ← attempt env n then pure ()
    else acquireFrom n

/-- `DbOwnerLock.acquire`. -/
def acquire : Prog World Unit := acquireFrom env 16

/-- `ownerLock.close()`. -/
def closeLock : Prog World Unit := Prog.modify ({ · with lock := env.stuckClose })

/-- `SqliteDataSource.openRuntime`. -/
def openRuntime : Prog World Unit := do
  acquire env
  Prog.onThrow
    (do
      call env .createDirectories
      call env .newRuntime
      Prog.modify fun w => { w with runtimes := w.runtimes + 1 }
      call env .openDb
      call env .exec
      call env .closeDb)
    (closeLock env)

/-- `SqliteWorker.spawn`. What one that throws leaves of its own is not counted here. -/
def spawn (k : Nat) : Prog World Unit := do
  call env (.spawn k)
  Prog.modify fun w => { w with workers := w.workers + 1 }

/-- `(1..n).map { SqliteWorker.spawn(..) }`. -/
def spawnReaders : Nat → Prog World Unit
  | 0 => pure ()
  | n + 1 => do
    spawnReaders n
    spawn env (n + 1)

/-- The three ways to open a file. -/
inductive Entry where
  | openRuntime
  /-- The constructor, which is `openRuntime` and three assignments. -/
  | dataSource
  | wal (readers : Nat)

/-- The three ways to open a file. -/
def Entry.open : Entry → Prog World Unit
  | .openRuntime | .dataSource => FailedOpen.openRuntime env
  | .wal readers => do
    FailedOpen.openRuntime env
    spawn env 0
    spawnReaders env readers

/-! ## The attempts at a free file -/

namespace Env

/-- The sidecar is open, and locked when it is the path's. -/
def Locks (k : Nat) : Prop := env.throws (.openSidecar k) = false ∧ env.throws (.tryLock k) = false

/-- The token is written and forced in the attempt `k`. -/
def Writes (k : Nat) : Prop := env.throws (.write k) = false ∧ env.throws (.force k) = false

/-- The attempt throws without the lock. -/
def Refused (k : Nat) : Prop := ¬ env.Locks k ∨ (env.orphaned k = true ∧ ¬ env.Writes k)

/-- The attempt comes to nothing, and the next one begins without the lock. -/
def Retries (k : Nat) : Prop :=
  env.Locks k ∧ env.Writes k ∧ (env.orphaned k = true ∨ (env.unread k = true ∧ env.stuck k = false))

/-- The attempt `k` ends with the lock. -/
def Gets (k : Nat) : Prop :=
  env.Locks k ∧ env.Writes k ∧ env.orphaned k = false ∧ env.unread k = false

/-- The attempts before it, of `n`, come to nothing. -/
def Reaches (n k : Nat) : Prop := ∀ j, k < j → j < n → env.Retries j

/-- `n` attempts come to an exception without the lock. -/
def Refuses (n : Nat) : Prop := (∀ j < n, env.Retries j) ∨ ∃ k < n, env.Reaches n k ∧ env.Refused k

/-- One of the first `n` attempts ends with the lock. -/
def Acquires (n : Nat) : Prop := ∃ k < n, env.Reaches n k ∧ env.Gets k

end Env

/-- The open fails before its runtime is made, and does not keep the lock. -/
def Early (w : World) : Prop :=
  w.lock = true ∨ env.Refuses 16 ∨
    (env.Acquires 16 ∧ env.stuckClose = false ∧
      (env.throws .createDirectories = true ∨ env.throws .newRuntime = true))

section
variable {env} {w : World} {k n : Nat}

/-- Where the file has an owner, the attempt changes nothing. -/
theorem attempt_owned (h : w.lock = true) : attempt env k w = (none, w) ∨ attempt env k w = (some false, w) := by
  simp only [attempt, call, Prog.throwIf, Prog.get, Prog.modify, bind]
  cases env.throws (.openSidecar k) <;> cases env.throws (.tryLock k) <;> cases env.orphaned k <;>
    cases env.throws (.write k) <;> cases env.throws (.force k) <;> simp [Prog.throw, pure, h]

theorem acquireFrom_owned (h : w.lock = true) : acquireFrom env n w = (none, w) := by
  induction n with
  | zero => rfl
  | succ n ih =>
    simp only [acquireFrom, bind]
    rcases attempt_owned (k := n) h with hk | hk
    · rw [hk]
    · rw [hk]
      exact ih

/-- What an attempt at a free file comes to: one exception, nothing, the lock, or the
lock and no owner. -/
theorem attempt_cases (h : w.lock = false) :
    (env.Refused k ∧ attempt env k w = (none, w)) ∨ (env.Retries k ∧ attempt env k w = (some false, w)) ∨
    (env.Gets k ∧ attempt env k w = (some true, { w with lock := true })) ∨
    (¬ env.Refused k ∧ ¬ env.Retries k ∧ ¬ env.Gets k ∧
      (attempt env k w = (none, { w with lock := true }) ∨
        attempt env k w = (some false, { w with lock := true }))) := by
  obtain ⟨lock, runtimes, workers⟩ := w
  obtain rfl : lock = false := h
  simp only [attempt, call, Prog.throwIf, Prog.get, Prog.modify, bind, Env.Refused, Env.Retries, Env.Gets, Env.Locks,
    Env.Writes]
  cases env.throws (.openSidecar k) <;> cases env.throws (.tryLock k) <;> cases env.orphaned k <;>
    cases env.throws (.write k) <;> cases env.throws (.force k) <;> cases env.unread k <;> cases env.stuck k <;>
    simp [Prog.throw, pure]

theorem not_retries_of_refused (h : env.Refused k) : ¬ env.Retries k := by
  rintro ⟨hlocks, hwrites, -⟩
  rcases h with h | h
  · exact h hlocks
  · exact h.2 hwrites

theorem not_retries_of_gets (h : env.Gets k) : ¬ env.Retries k := by
  rintro ⟨-, -, horphan | ⟨hunread, -⟩⟩
  · exact absurd (h.2.2.1.symm.trans horphan) (by decide)
  · exact absurd (h.2.2.2.symm.trans hunread) (by decide)

theorem reaches_succ (hk : k < n) : env.Reaches (n + 1) k ↔ env.Retries n ∧ env.Reaches n k := by
  refine ⟨fun h => ⟨h n hk (Nat.lt_succ_self n), fun j hj hn => h j hj (by omega)⟩, fun h j hj hn => ?_⟩
  rcases Nat.lt_succ_iff_lt_or_eq.mp hn with hlt | rfl
  · exact h.2 j hj hlt
  · exact h.1

theorem reaches_self : env.Reaches (n + 1) n := fun j hj hn => absurd hn (by omega)

/-- The first attempt decides, unless it comes to nothing. -/
theorem exists_succ {P : Nat → Prop} :
    (∃ k < n + 1, env.Reaches (n + 1) k ∧ P k) ↔ P n ∨ (env.Retries n ∧ ∃ k < n, env.Reaches n k ∧ P k) := by
  constructor
  · rintro ⟨k, hk, hreaches, hp⟩
    rcases Nat.lt_succ_iff_lt_or_eq.mp hk with hlt | rfl
    · exact .inr ⟨((reaches_succ hlt).mp hreaches).1, k, hlt, ((reaches_succ hlt).mp hreaches).2, hp⟩
    · exact .inl hp
  · rintro (hp | ⟨hretries, k, hk, hreaches, hp⟩)
    · exact ⟨n, Nat.lt_succ_self n, reaches_self, hp⟩
    · exact ⟨k, by omega, (reaches_succ hk).mpr ⟨hretries, hreaches⟩, hp⟩

theorem refuses_succ : env.Refuses (n + 1) ↔ env.Refused n ∨ (env.Retries n ∧ env.Refuses n) := by
  have hall : (∀ j < n + 1, env.Retries j) ↔ env.Retries n ∧ ∀ j < n, env.Retries j := by
    refine ⟨fun h => ⟨h n (Nat.lt_succ_self n), fun j hj => h j (by omega)⟩, fun h j hj => ?_⟩
    rcases Nat.lt_succ_iff_lt_or_eq.mp hj with hlt | rfl
    · exact h.2 j hlt
    · exact h.1
  rw [Env.Refuses, Env.Refuses, exists_succ, hall]
  tauto

theorem acquires_succ : env.Acquires (n + 1) ↔ env.Gets n ∨ (env.Retries n ∧ env.Acquires n) := exists_succ

theorem not_refused_of_gets (h : env.Gets k) : ¬ env.Refused k := by
  rintro (hno | ⟨horphan, -⟩)
  · exact hno h.1
  · exact absurd (h.2.2.1.symm.trans horphan) (by decide)

/-- What `n` attempts at a free file come to. -/
theorem acquireFrom_cases (h : w.lock = false) :
    (env.Refuses n ∧ ¬ env.Acquires n ∧ acquireFrom env n w = (none, w)) ∨
    (¬ env.Refuses n ∧ env.Acquires n ∧ acquireFrom env n w = (some (), { w with lock := true })) ∨
    (¬ env.Refuses n ∧ ¬ env.Acquires n ∧ acquireFrom env n w = (none, { w with lock := true })) := by
  induction n with
  | zero =>
    refine .inl ⟨.inl fun j hj => absurd hj (Nat.not_lt_zero j), ?_, rfl⟩
    rintro ⟨k, hk, -⟩
    exact absurd hk (Nat.not_lt_zero k)
  | succ n ih =>
    rw [refuses_succ, acquires_succ]
    have hstep : acquireFrom env (n + 1) w = match attempt env n w with
        | (some true, w') => (some (), w')
        | (some false, w') => acquireFrom env n w'
        | (none, w') => (none, w') := by
      simp only [acquireFrom, bind]
      rcases attempt env n w with ⟨_ | _ | _, w'⟩ <;> rfl
    rw [hstep]
    rcases attempt_cases (k := n) h with ⟨hrefused, heq⟩ | ⟨hretries, heq⟩ | ⟨hgets, heq⟩ |
      ⟨hrefused, hretries, hgets, heq⟩
    · have hnot := not_retries_of_refused hrefused
      have hnot' : ¬ env.Gets n := fun hgets => not_refused_of_gets hgets hrefused
      rw [heq]
      exact .inl ⟨.inl hrefused, by tauto, rfl⟩
    · have hnot : ¬ env.Refused n := fun h => not_retries_of_refused h hretries
      have hnot' : ¬ env.Gets n := fun h => not_retries_of_gets h hretries
      rw [heq]
      simpa only [hnot, hnot', hretries, false_or, true_and] using ih
    · have hnot := not_retries_of_gets hgets
      have hnot' := not_refused_of_gets hgets
      rw [heq]
      exact .inr (.inl ⟨by tauto, .inl hgets, rfl⟩)
    · -- The lock is taken and nobody has it: the attempts behind find the file owned.
      refine .inr (.inr ⟨by tauto, by tauto, ?_⟩)
      rcases heq with heq | heq
      · rw [heq]
      · rw [heq]
        exact acquireFrom_owned rfl

/-! ## The opens -/

/-- What `openRuntime` does behind the lock. -/
theorem openRuntime_of_acquired {w' : World} (h : acquire env w = (some (), w')) :
    openRuntime env w = Prog.onThrow
      (do
        call env .createDirectories
        call env .newRuntime
        Prog.modify fun w => { w with runtimes := w.runtimes + 1 }
        call env .openDb
        call env .exec
        call env .closeDb)
      (closeLock env) w' := by
  rw [openRuntime]
  exact Prog.bind_of_some h

theorem openRuntime_early (h : Early env w) : openRuntime env w = (none, w) := by
  have hrefused : acquire env w = (none, w) → openRuntime env w = (none, w) := fun heq => by
    rw [openRuntime]
    exact Prog.bind_of_none heq
  cases hlock : w.lock with
  | true => exact hrefused (acquireFrom_owned hlock)
  | false =>
    rcases acquireFrom_cases (n := 16) hlock with ⟨-, -, heq⟩ | ⟨hno, -, heq⟩ | ⟨hno, hno', -⟩
    · exact hrefused heq
    · obtain ⟨-, hclose, hthrows⟩ := (h.resolve_left (by rw [hlock]; decide)).resolve_left hno
      rw [openRuntime_of_acquired heq]
      have hsame : { w with lock := false } = w := by rw [← hlock]
      rcases hthrows with hthrows | hthrows
      · simp [call, closeLock, Prog.throwIf, Prog.throw, Prog.onThrow, Prog.modify, bind, hthrows, hclose, hsame]
      · cases hdir : env.throws .createDirectories <;>
          simp [call, closeLock, Prog.throwIf, Prog.throw, Prog.onThrow, Prog.modify, bind, pure, hthrows, hdir, hclose,
            hsame]
    · rcases h with h | h | ⟨h, -⟩
      · exact absurd (hlock.symm.trans h) (by decide)
      · exact absurd h hno
      · exact absurd h hno'

/-- There is one runtime more. -/
def Made (w s : World) : Prop := s.runtimes = w.runtimes + 1

theorem call_made {site : Site} {s : World} (h : Made w s) : (call env site).wp (fun _ => Made w) (Made w) s := by
  rw [call, Prog.wp_throwIf]
  split <;> exact h

/-- It throws with the lock, or with a runtime it has made. -/
theorem openRuntime_late (h : ¬ Early env w) :
    (openRuntime env).wp (fun _ => Made w) (fun s => Made w s ∨ s.lock ≠ w.lock) w := by
  simp only [Early, not_or, not_and, Bool.not_eq_true] at h
  obtain ⟨hlock, hrefuses, hthrows⟩ := h
  rcases acquireFrom_cases (n := 16) hlock with ⟨hno, -, -⟩ | ⟨-, hgets, heq⟩ | ⟨-, -, heq⟩
  · exact absurd hno hrefuses
  · have hclose : ∀ s, Made w s → (closeLock env).wp (fun _ s => Made w s ∨ s.lock ≠ w.lock)
        (fun s => Made w s ∨ s.lock ≠ w.lock) s := fun s hs => .inl hs
    rw [Prog.wp, openRuntime_of_acquired heq, ← Prog.wp]
    rw [Prog.wp_onThrow]
    simp only [call, Prog.wp_bind, Prog.wp_throwIf, Prog.wp_modify]
    have hkept : env.stuckClose = true → (closeLock env).wp (fun _ s => Made w s ∨ s.lock ≠ w.lock)
        (fun s => Made w s ∨ s.lock ≠ w.lock) { w with lock := true } := fun hstuck => .inr (by simp [hstuck, hlock])
    by_cases hstuck : env.stuckClose = true
    · split
      · exact hkept hstuck
      · split
        · exact hkept hstuck
        · split
          · exact hclose _ rfl
          · split
            · exact hclose _ rfl
            · split
              · exact hclose _ rfl
              · exact rfl
    · obtain ⟨hdir, hnew⟩ := hthrows hgets ((Bool.not_eq_true _).mp hstuck)
      -- The runtime is there; whatever throws now, the `catch` block closes the lock only.
      rw [hdir, hnew, if_neg (by decide), if_neg (by decide)]
      split
      · exact hclose _ rfl
      · split
        · exact hclose _ rfl
        · split
          · exact hclose _ rfl
          · exact rfl
  · have hthrew : openRuntime env w = (none, { w with lock := true }) := by
      rw [openRuntime]
      exact Prog.bind_of_none heq
    rw [Prog.wp, hthrew]
    exact .inr (by simp [hlock])

theorem spawn_made {k : Nat} {s : World} (h : Made w s) : (spawn env k).wp (fun _ => Made w) (Made w) s :=
  Prog.wp_then (call_made h) fun _ _ hs => hs

theorem spawnReaders_made : ∀ (n : Nat) {s : World}, Made w s →
    (spawnReaders env n).wp (fun _ => Made w) (Made w) s
  | 0, _, h => h
  | n + 1, _, h => Prog.wp_then (spawnReaders_made n h) fun _ _ hs => spawn_made hs

theorem open_early (e : Entry) (h : Early env w) : e.open env w = (none, w) := by
  cases e with
  | openRuntime | dataSource => exact openRuntime_early h
  | wal readers => simp only [Entry.open, bind, openRuntime_early h]

theorem open_late (e : Entry) (h : ¬ Early env w) :
    (e.open env).wp (fun _ => Made w) (fun s => Made w s ∨ s.lock ≠ w.lock) w := by
  cases e with
  | openRuntime | dataSource => exact openRuntime_late h
  | wal readers =>
    refine Prog.wp_then (openRuntime_late h) fun _ s hs => ?_
    have hrest : (do spawn env 0; spawnReaders env readers : Prog World Unit).wp (fun _ => Made w) (Made w) s :=
      Prog.wp_then (spawn_made hs) fun _ _ hs => spawnReaders_made readers hs
    exact Prog.wp_mono hrest (fun _ _ hs => hs) fun _ hs => .inl hs

end

/-- **A failed open leaves nothing behind exactly when it failed before there
was a runtime**, at a place that does not keep the lock: for every way to open, every
reader count and every place to throw. -/
theorem failed_open_iff (e : Entry) (env : Env) (w : World) (hthrew : (e.open env w).1 = none) :
    (e.open env w).2 = w ↔ Early env w := by
  refine ⟨fun hsame => ?_, fun h => by rw [open_early e h]⟩
  by_contra hlate
  have hkept := open_late e hlate
  rw [Prog.wp] at hkept
  split at hkept
  · next a s heq => rw [heq] at hthrew; cases hthrew
  · next s heq =>
    rw [heq] at hsame
    obtain rfl : s = w := hsame
    rcases hkept with hmade | hlock
    · have hcount : s.runtimes = s.runtimes + 1 := hmade
      omega
    · exact hlock rfl

/-- No room for the runtime: the constructor throws, and the lock is free again. -/
theorem failed_open_newRuntime : (Entry.dataSource.open { throws := (· == .newRuntime) } {}).2 = {} ↔
    Early { throws := (· == .newRuntime) } {} :=
  failed_open_iff .dataSource { throws := (· == .newRuntime) } {} (by decide)

/-- The second reader's spawn throws: lock, runtime, writer and first reader stay. And a disk
that is full when `acquire` writes its token: the lock stays. -/
theorem failed_open_leaks :
    (¬ ∀ (e : Entry) (throws : Site → Bool) (w : World),
      (e.open { throws := throws } w).1 = none → (e.open { throws := throws } w).2 = w) ∧
    (Entry.dataSource.open { throws := (· == .write 15) } {}) = (none, { lock := true }) :=
  ⟨fun h => absurd (h (.wal 3) (· == .spawn 2) {} (by decide)) (by decide), by decide⟩

end FailedOpen

end Sqlol

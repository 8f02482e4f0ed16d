/-
The reader pool of `SqliteWal`: `borrowReader` under `queryLong`, `queryText`
and `query`, by any number of threads.

`poll(60s)` and `put` both enter through `lockInterruptibly`: with the calling
thread's interrupt flag set they throw, clear the flag, and take or insert
nothing. For `poll` that is harmless. The `put` stands in the `finally` block,
where nobody tries again, so a reader is lost exactly when a call reaches its
`put` with the flag set (`conserved_iff_cleanPut`).
-/
import Sqlol.Runs
import Mathlib.Data.List.Perm.Basic
import Mathlib.Data.List.Nodup
import Mathlib.Data.List.Range
import Mathlib.Logic.ExistsUnique

namespace Sqlol

namespace ReaderPool

/-- Where a query call is. -/
inductive Pc where
  | idle
  | polling
  /-- In `fn(w)`. -/
  | borrowed (w : Nat)
  /-- In the `finally` block. -/
  | putting (w : Nat)
  | done
  deriving DecidableEq

/-- The queue, the calls, and the threads' interrupt flags. -/
structure Wal where
  pool : List Nat
  pc : Nat → Pc := fun _ => .idle
  interrupted : Nat → Bool := fun _ => false

/-- `SqliteWal.open`: the pool is made of the `n` readers. -/
def start (n : Nat) : Wal := { pool := List.range n }

/-- The steps of the calls `c` of `read`, and an interrupt of a thread. -/
inductive Label where
  | call (c : Nat)
  | poll (c : Nat)
  | pollTimeout (c : Nat)
  /-- `fn(w)` returns or throws. -/
  | finish (c : Nat)
  | put (c : Nat)
  | interrupt (t : Nat)
  /-- Something the thread runs clears its flag. -/
  | clear (t : Nat)

namespace Wal

/-- The call goes on at `p`. -/
def goto (s : Wal) (c : Nat) (p : Pc) : Wal := { s with pc := Function.update s.pc c p }

/-- A thread's interrupt flag. -/
def setFlag (s : Wal) (t : Nat) (b : Bool) : Wal := { s with interrupted := Function.update s.interrupted t b }

/-- The call has the reader. -/
def Borrows (s : Wal) (c w : Nat) : Prop := s.pc c = .borrowed w ∨ s.pc c = .putting w

/-- The call is under way. -/
def Running (s : Wal) (c : Nat) : Prop := s.pc c ≠ .idle ∧ s.pc c ≠ .done

/-- The reader is in the pool once and with nobody, or not in the pool and
with exactly one call. -/
def Accounted (s : Wal) (w : Nat) : Prop :=
  (s.pool.count w = 1 ∧ ∀ c, ¬ s.Borrows c w) ∨ (s.pool.count w = 0 ∧ ∃! c, s.Borrows c w)

end Wal

section
-- The thread each call runs in.
variable (thread : Nat → Nat)

/-- One step; none where it is not the next one. -/
def step (s : Wal) : Label → Option Wal
  | .call c => match s.pc c with
    | .idle => some (s.goto c .polling)
    | _ => none
  | .poll c => match s.pc c with
    | .polling =>
      if s.interrupted (thread c) then some ((s.setFlag (thread c) false).goto c .done)
      else match s.pool with
        | [] => none
        | w :: rest => some ({ s with pool := rest }.goto c (.borrowed w))
    | _ => none
  | .pollTimeout c => match s.pc c with
    | .polling => if s.pool = [] then some (s.goto c .done) else none
    | _ => none
  | .finish c => match s.pc c with
    | .borrowed w => some (s.goto c (.putting w))
    | _ => none
  | .put c => match s.pc c with
    | .putting w =>
      if s.interrupted (thread c) then some ((s.setFlag (thread c) false).goto c .done)
      else some ({ s with pool := s.pool ++ [w] }.goto c .done)
    | _ => none
  | .interrupt t => some (s.setFlag t true)
  | .clear t => some (s.setFlag t false)

end

/-- Each of the `n` readers is accounted for, and with no query running all
of them are in the pool. -/
structure Conserved (n : Nat) (s : Wal) : Prop where
  once : ∀ w < n, s.Accounted w
  all_in : (∀ c, ¬ s.Running c) → s.pool.Perm (List.range n)

/-- A `put` is entered with a clear interrupt flag. -/
def CleanPut (thread : Nat → Nat) (s : Wal) : Label → Prop
  | .put c => ∀ w, s.pc c = .putting w → s.interrupted (thread c) = false
  | _ => True

/-- Nothing but the readers is ever in the pool or with a call. -/
structure Known (n : Nat) (s : Wal) : Prop where
  pool : ∀ w ∈ s.pool, w < n
  borrowed : ∀ c w, s.Borrows c w → w < n

theorem conserved_start (n : Nat) : Conserved n (start n) where
  once w hw := by
    refine .inl ⟨List.count_eq_one_of_mem (List.nodup_range ..) (List.mem_range.mpr hw), fun c hb => ?_⟩
    rcases hb with h | h <;> cases h
  all_in _ := List.Perm.refl _

theorem known_start (n : Nat) : Known n (start n) where
  pool _ hw := List.mem_range.mp hw
  borrowed _ _ hb := by rcases hb with h | h <;> cases h

/-- The pool holds all readers when it holds each once. -/
theorem perm_of_once {n : Nat} {s : Wal} (hk : Known n s) (h : ∀ w < n, s.pool.count w = 1) :
    s.pool.Perm (List.range n) := by
  rw [List.perm_iff_count]
  intro w
  by_cases hw : w < n
  · rw [h w hw, List.count_eq_one_of_mem (List.nodup_range ..) (List.mem_range.mpr hw)]
  · rw [List.count_eq_zero_of_not_mem fun hm => hw (hk.pool w hm),
      List.count_eq_zero_of_not_mem fun hm => hw (List.mem_range.mp hm)]

section
variable {n : Nat} {s : Wal} {c : Nat}

theorem Wal.borrows_running {w : Nat} (h : s.Borrows c w) : s.Running c := by
  rcases h with h | h <;> rw [Wal.Running, h] <;> exact ⟨by simp, by simp⟩

/-- `once` is the whole of it. -/
theorem Conserved.of_once (hk : Known n s) (h : ∀ w < n, s.Accounted w) : Conserved n s := by
  refine ⟨h, fun hidle => perm_of_once hk fun w hw => ?_⟩
  rcases h w hw with ⟨h1, -⟩ | ⟨-, c, hc, -⟩
  · exact h1
  · exact absurd (Wal.borrows_running hc) (hidle c)

theorem Wal.Accounted.same {s' : Wal} {w : Nat} (h : s.Accounted w) (hpool : s'.pool.count w = s.pool.count w)
    (hb : ∀ c, s'.Borrows c w ↔ s.Borrows c w) : s'.Accounted w := by
  simp only [Wal.Accounted, hpool, hb]
  exact h

theorem goto_borrows {p : Pc} {d w : Nat} :
    (s.goto c p).Borrows d w ↔ if d = c then p = .borrowed w ∨ p = .putting w else s.Borrows d w := by
  simp only [Wal.Borrows, Wal.goto]
  split
  · next h => subst h; simp only [Function.update_self]
  · next h => simp only [Function.update_of_ne h]

/-- A state with the same pool and the same borrowers. -/
theorem Conserved.same {s' : Wal} (hc : Conserved n s) (hk : Known n s) (hpool : s'.pool = s.pool)
    (hb : ∀ c w, s'.Borrows c w ↔ s.Borrows c w) : Conserved n s' ∧ Known n s' := by
  have hk' : Known n s' := ⟨hpool ▸ hk.pool, fun c w h => hk.borrowed c w ((hb c w).mp h)⟩
  exact ⟨.of_once hk' fun w hw => (hc.once w hw).same (by rw [hpool]) fun c => hb c w, hk'⟩

/-- A call moves on and has what it had. -/
theorem Conserved.goto (hc : Conserved n s) (hk : Known n s) {p : Pc}
    (h : ∀ w, (p = .borrowed w ∨ p = .putting w) ↔ s.Borrows c w) :
    Conserved n (s.goto c p) ∧ Known n (s.goto c p) := by
  refine hc.same hk rfl fun d w => ?_
  rw [goto_borrows]
  split
  · next hd => subst hd; exact h w
  · rfl

/-- Taking the head of the pool. -/
theorem Conserved.take (hc : Conserved n s) (hk : Known n s) {w : Nat} {rest : List Nat}
    (hpc : s.pc c = .polling) (hpool : s.pool = w :: rest) :
    Conserved n ({ s with pool := rest }.goto c (.borrowed w)) ∧
      Known n ({ s with pool := rest }.goto c (.borrowed w)) := by
  have hb : ∀ d v, ({ s with pool := rest }.goto c (.borrowed w)).Borrows d v ↔
      if d = c then w = v else s.Borrows d v := fun d v => by
    rw [goto_borrows]
    simp only [Wal.Borrows, Pc.borrowed.injEq, reduceCtorEq, or_false]
  have hk' : Known n ({ s with pool := rest }.goto c (.borrowed w)) := by
    refine ⟨fun v hv => hk.pool v (hpool ▸ List.mem_cons_of_mem w hv), fun d v hd => ?_⟩
    rw [hb] at hd
    split at hd
    · subst hd; exact hk.pool w (hpool ▸ List.mem_cons_self)
    · exact hk.borrowed d v hd
  refine ⟨.of_once hk' fun v hv => ?_, hk'⟩
  have hcount : s.pool.count v = rest.count v + if w = v then 1 else 0 := by
    rw [hpool, List.count_cons]; simp
  by_cases hwv : w = v
  · -- It was in the pool, so with nobody; now it is with `c` alone.
    subst hwv
    rw [if_pos rfl] at hcount
    rcases hc.once w hv with ⟨h1, hno⟩ | ⟨h0, -⟩
    · refine .inr ⟨by simp only [Wal.goto]; omega, c, by simp only [hb, if_true], fun d hd => ?_⟩
      simp only [hb] at hd
      split at hd
      · assumption
      · exact absurd hd (hno d)
    · omega
  · rw [if_neg hwv] at hcount
    refine (hc.once v hv).same (by simp only [Wal.goto]; omega) fun d => ?_
    rw [hb]
    split
    · next h =>
      subst h
      refine ⟨fun h => absurd h hwv, fun h => ?_⟩
      rcases h with h | h <;> rw [hpc] at h <;> cases h
    · rfl

/-- Handing the reader back. -/
theorem Conserved.give (hc : Conserved n s) (hk : Known n s) {w : Nat} (hpc : s.pc c = .putting w) :
    Conserved n ({ s with pool := s.pool ++ [w] }.goto c .done) ∧
      Known n ({ s with pool := s.pool ++ [w] }.goto c .done) := by
  have hown : s.Borrows c w := .inr hpc
  have hb : ∀ d v, ({ s with pool := s.pool ++ [w] }.goto c .done).Borrows d v ↔ d ≠ c ∧ s.Borrows d v :=
    fun d v => by
      rw [goto_borrows]
      by_cases hdc : d = c
      · simp [hdc]
      · simp [hdc, Wal.Borrows]
  have hk' : Known n ({ s with pool := s.pool ++ [w] }.goto c .done) := by
    refine ⟨fun v hv => ?_, fun d v hd => hk.borrowed d v ((hb d v).mp hd).2⟩
    rcases List.mem_append.mp hv with hv | hv
    · exact hk.pool v hv
    · rw [List.mem_singleton.mp hv]; exact hk.borrowed c w hown
  refine ⟨.of_once hk' fun v hv => ?_, hk'⟩
  have hcount : (s.pool ++ [w]).count v = s.pool.count v + if w = v then 1 else 0 := by
    rw [List.count_append, List.count_singleton]; simp
  by_cases hwv : w = v
  · -- `c` was its only borrower.
    subst hwv
    rw [if_pos rfl] at hcount
    rcases hc.once w hv with ⟨-, hno⟩ | ⟨h0, e, -, huniq⟩
    · exact absurd hown (hno c)
    · refine .inl ⟨by simp only [Wal.goto]; omega, fun d hd => ?_⟩
      rw [hb] at hd
      exact hd.1 ((huniq d hd.2).trans (huniq c hown).symm)
  · rw [if_neg hwv] at hcount
    refine (hc.once v hv).same (by simp only [Wal.goto]; omega) fun d => ?_
    rw [hb]
    refine ⟨And.right, fun h => ⟨?_, h⟩⟩
    rintro rfl
    rcases h with h | h <;> rw [hpc] at h <;> cases h
    exact hwv rfl

/-- A reader whose `put` throws is in no pool and with no call. -/
theorem Conserved.lost (hc : Conserved n s) {w : Nat} (hw : w < n) (hpc : s.pc c = .putting w) {t : Nat}
    {b : Bool} : ¬ Conserved n ((s.setFlag t b).goto c .done) := by
  intro hc'
  have hown : s.Borrows c w := .inr hpc
  rcases hc.once w hw with ⟨-, hno⟩ | ⟨h0, e, -, huniq⟩
  · exact hno c hown
  · rcases hc'.once w hw with ⟨h1, -⟩ | ⟨-, d, hd, -⟩
    · simp only [Wal.goto, Wal.setFlag] at h1
      omega
    · simp only [goto_borrows] at hd
      split at hd
      · rcases hd with h | h <;> cases h
      · next hdc => exact hdc ((huniq d hd).trans (huniq c hown).symm)

end

section
variable {thread : Nat → Nat} {n : Nat}

/-- A step with a clean `put` keeps the readers. -/
theorem conserved_step {s s' : Wal} {l : Label} (hi : Conserved n s ∧ Known n s) (hp : CleanPut thread s l)
    (h : step thread s l = some s') : Conserved n s' ∧ Known n s' := by
  obtain ⟨hc, hk⟩ := hi
  have flag : ∀ t b, Conserved n (s.setFlag t b) ∧ Known n (s.setFlag t b) :=
    fun t b => hc.same hk rfl fun _ _ => Iff.rfl
  cases l with
  | call c =>
    simp only [step] at h
    split at h <;> cases h
    next hpc => exact hc.goto hk fun w => by simp [Wal.Borrows, hpc]
  | poll c =>
    simp only [step] at h
    split at h
    · next hpc =>
      split at h
      · cases h
        exact (flag _ false).1.goto (flag _ false).2 fun w => by simp [Wal.Borrows, Wal.setFlag, hpc]
      · split at h <;> cases h
        next hpool => exact hc.take hk hpc hpool
    · cases h
  | pollTimeout c =>
    simp only [step] at h
    split at h
    · next hpc =>
      split at h <;> cases h
      exact hc.goto hk fun w => by simp [Wal.Borrows, hpc]
    · cases h
  | finish c =>
    simp only [step] at h
    split at h <;> cases h
    next hpc => exact hc.goto hk fun w => by simp [Wal.Borrows, hpc]
  | put c =>
    simp only [step] at h
    split at h
    · next w hpc =>
      rw [hp w hpc] at h
      cases h
      exact hc.give hk hpc
    · cases h
  | interrupt t =>
    cases h
    exact flag t true
  | clear t =>
    cases h
    exact flag t false

/-- From any accounted state, not only a fresh pool. -/
theorem everyState_conserved_iff {s : Wal} (hc : Conserved n s) (hk : Known n s) (labels : List Label) :
    EveryState (step thread) (Conserved n) s labels ↔ EveryStep (step thread) (CleanPut thread) s labels := by
  constructor
  · refine everyStep_of_everyState (I := fun s => Conserved n s ∧ Known n s)
      (fun s l s' hi hp hs => conserved_step hi hp hs) (fun s l hi hnext => ?_) ⟨hc, hk⟩
    cases l with
    | put c =>
      intro w hpc
      by_contra hflag
      rw [Bool.not_eq_false] at hflag
      have hs : step thread s (.put c) = some ((s.setFlag (thread c) false).goto c .done) := by
        simp only [step, hpc, hflag, if_true]
      exact hi.1.lost (hi.2.borrowed c w (.inr hpc)) hpc (hnext _ hs)
    | _ => trivial
  · exact everyState_of_invariant (fun s l s' hi hp hs => conserved_step hi hp hs) (fun s hi => hi.1) ⟨hc, hk⟩

/-- **Readers are conserved exactly as long as every `put` is clean**: in
every run, by any calls in any threads, interrupted anywhere. -/
theorem conserved_iff_cleanPut (labels : List Label) :
    EveryState (step thread) (Conserved n) (start n) labels ↔
      EveryStep (step thread) (CleanPut thread) (start n) labels :=
  everyState_conserved_iff (conserved_start n) (known_start n) labels

end

/-- One reader, one query, interrupted in `fn`. -/
theorem interrupted_query_loses_reader :
    ¬ EveryState (step id) (Conserved 1) (start 1) [.call 0, .poll 0, .interrupt 0, .finish 0, .put 0] := by
  rw [everyState_conserved_iff (conserved_start 1) (known_start 1)]
  rintro ⟨-, h⟩
  have hput := (((((h _ rfl).2 _ rfl).2 _ rfl).2 _ rfl).1 : CleanPut id _ (.put 0))
  exact absurd (hput 0 rfl) (by decide)

end ReaderPool

end Sqlol

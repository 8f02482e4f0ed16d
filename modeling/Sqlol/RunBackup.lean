/-
`WorkerDbPort.runBackup` with all its exits, and `backup` and `restore` over it.

The function holds two `malloc`ed blocks, the handle of the file and the
`sqlite3_backup` while it loops over `sqlite3_backup_step` and calls the
observer. Every call may throw. What the calls do to the four is kept as a list
of events, beside the answers of the steps so far and the error codes of the two
handles.

The loop takes fuel; a program that returns `none` is in the loop still. With a
step size of 0 there is no fuel that suffices (`stepLoop_ends_iff`).
-/
import Mathlib.Data.List.Basic
import Sqlol.Prog

namespace Sqlol

namespace RunBackup

/-- The two blocks of `runBackup`. -/
inductive Block where
  | pp
  | mainPtr
  deriving DecidableEq

/-- The connection's own handle (`s.db`), and the one opened on the file. -/
inductive Handle where
  | session
  | file
  deriving DecidableEq

/-- The calls that may throw; those of the loop with the number of its turn. -/
inductive Site where
  | malloc (b : Block)
  | sqlPtrPath
  | openV2
  | sqlPtrSchema
  | backupInit
  | step (i : Nat)
  | remaining (i : Nat)
  | pagecount (i : Nat)
  | observer (i : Nat)
  | sleep (i : Nat)
  | backupFinish
  | errcode
  | sqlPtrPragma
  | exec
  | closeV2
  | free (b : Block)
  | submit
  | copy
  deriving DecidableEq

/-- What happens to what is held. A call that releases something is an event
whether it throws or not, one that gives something only when it returns. -/
inductive Event where
  | malloc (b : Block)
  | opened
  | init
  | finish
  | close
  | free (b : Block)
  | copy
  deriving DecidableEq

/-- What has been done, and what the guest keeps of it. -/
structure World where
  events : List Event
  /-- What the steps answered. -/
  steps : List Int
  /-- The `sqlite3_extended_errcode` of a handle. -/
  errcode : Handle → Int
  /-- The destination of the backup object. -/
  dest : Handle

/-- Before the call. -/
def World.start (errcode : Handle → Int) : World where
  events := []
  steps := []
  errcode := errcode
  dest := .file

/-- What the last step answered. -/
def World.lastStep (w : World) : Option Int := w.steps.getLast?

/-- What the guest answers. -/
structure Guest where
  throws : Site → Bool
  /-- `malloc` has nothing left and gives 0. -/
  null : Block → Bool
  openRc : Int
  /-- A failed open leaves a handle, unless memory is short. -/
  openHandle : Bool
  /-- The error code that a failed `sqlite3_backup_init` leaves on its destination. -/
  initError : Option Int
  initError_ne : initError ≠ some 0
  /-- The answers of the steps. -/
  answer : Nat → Int

/-- The arguments of `runBackup`. -/
structure Args where
  toDest : Bool
  observer : Bool
  sleepMillis : Int
  nTimeoutLimit : Int
  pagesPerStep : Int

/-- `SQLITE_DONE`. -/
def DONE : Int := 101

/-- `rc == 5 || rc == 6`. -/
def Busy (rc : Int) : Prop := rc = 5 ∨ rc = 6

instance (rc : Int) : Decidable (Busy rc) := inferInstanceAs (Decidable (rc = 5 ∨ rc = 6))

/-- The code that `sqlite3_backup_finish` leaves. -/
def finishCode : Option Int → Int
  | some rc => if rc = DONE then 0 else rc
  | none => 0

section
variable (g : Guest) (a : Args)

/-- A call that may throw. -/
def call (site : Site) : Prog World Unit := Prog.throwIf (g.throws site)

/-- Something is done with what is held. -/
def event (e : Event) : Prog World Unit := Prog.modify fun w => { w with events := w.events ++ [e] }

/-- `malloc`, whose block is held when there is one. -/
def malloc (b : Block) : Prog World Unit := do
  call g (.malloc b)
  Prog.onlyIf (g.null b = false) (event (.malloc b))

/-- `free`, which may throw behind its work. -/
def free (b : Block) : Prog World Unit := do
  event (.free b)
  call g (.free b)

/-- `sqlite3_open_v2` of the file. -/
def sqlite3OpenV2 : Prog World Int := do
  call g .openV2
  Prog.onlyIf (g.openRc = 0 ∨ g.openHandle = true) (event .opened)
  pure g.openRc

/-- `sqlite3_close_v2` of the file's handle. -/
def sqlite3CloseV2 : Prog World Unit := do
  event .close
  call g .closeV2

/-- Whether there is a backup object. -/
def sqlite3BackupInit (dest : Handle) : Prog World Bool := do
  call g .backupInit
  match g.initError with
  | some rc => do
    Prog.modify fun w => { w with errcode := fun h => if h = dest then rc else w.errcode h }
    pure false
  | none => do
    event .init
    Prog.modify fun w => { w with dest := dest }
    pure true

/-- The step of turn `i`. -/
def sqlite3BackupStep (i : Nat) : Prog World Int := do
  call g (.step i)
  Prog.modify fun w => { w with steps := w.steps ++ [g.answer i] }
  pure (g.answer i)

/-- The destination has the last step's code behind it, `DONE` as 0. -/
def sqlite3BackupFinish : Prog World Unit := do
  event .finish
  call g .backupFinish
  Prog.modify fun w => { w with errcode := fun h => if h = w.dest then finishCode w.lastStep else w.errcode h }

/-- `sqlite3_extended_errcode` of a handle. -/
def sqlite3ExtendedErrcode (h : Handle) : Prog World Int := do
  call g .errcode
  let w ← Prog.get
  pure (w.errcode h)

/-- `observer.progress(s.x.sqlite3BackupRemaining(..), s.x.sqlite3BackupPagecount(..))`. -/
def progress (i : Nat) : Prog World Unit := do
  call g (.remaining i)
  call g (.pagecount i)
  call g (.observer i)

/-- A negative time is an `IllegalArgumentException`. -/
def sleep (i : Nat) : Prog World Unit := Prog.throwIf (g.throws (.sleep i) || decide (a.sleepMillis < 0))

/-- The loop from turn `i` on, and the code it is left with. The counter goes up to
the limit at most, so that it does not overflow. -/
def stepLoop : Nat → Nat → Int → Prog World (Option Int)
  | 0, _, _ => pure none
  | fuel + 1, i, nTimeout => do
    let rc ← sqlite3BackupStep g i
    Prog.onlyIf (a.observer = true ∧ (rc = 0 ∨ rc = DONE)) (progress g i)
    if Busy rc then
      if nTimeout ≥ a.nTimeoutLimit then pure (some rc)
      else do
        sleep g a i
        stepLoop fuel (i + 1) (nTimeout + 1)
    else if rc = 0 then stepLoop fuel (i + 1) nTimeout
    else pure (some rc)

/-- `if (toDest) fileDb else s.db`. -/
def Args.destHandle (a : Args) : Handle := if a.toDest then .file else .session

/-- Behind the loop: `finish`, the code of the destination, the journal mode of a copy. -/
def finishBackup : Prog World (Option Int) := do
  sqlite3BackupFinish g
  let frc ← sqlite3ExtendedErrcode g a.destHandle
  Prog.onlyIf (a.toDest = true ∧ frc = 0) (do
    call g .sqlPtrPragma
    call g .exec)
  pure (some frc)

/-- `try p finally q`. A program that is in its loop still does not come to `q`. -/
def tryFinally (p : Prog World (Option Int)) (q : Prog World Unit) : Prog World (Option Int) := fun w =>
  match p w with
  | (some none, w') => (some none, w')
  | _ => Prog.tryFinally p q w

/-- With the file's handle open. -/
def withFile (fuel : Nat) : Prog World (Option Int) := do
  call g .sqlPtrSchema
  let pBackup ← sqlite3BackupInit g a.destHandle
  if pBackup = false then do
    let rc ← sqlite3ExtendedErrcode g a.destHandle
    pure (some rc)
  else do
    let ended ← stepLoop g a fuel 0 0
    match ended with
    | none => pure none
    | some _ => finishBackup g a

/-- With both blocks allocated. The accesses to guest memory are in bounds. -/
def withBlocks (fuel : Nat) : Prog World (Option Int) := do
  call g .sqlPtrPath
  let rc ← sqlite3OpenV2 g
  if rc ≠ 0 then do
    sqlite3CloseV2 g
    pure (some rc)
  else tryFinally (withFile g a fuel) (sqlite3CloseV2 g)

/-- `WorkerDbPort.runBackup`. -/
def runBackup (fuel : Nat) : Prog World (Option Int) := do
  malloc g .pp
  malloc g .mainPtr
  tryFinally (withBlocks g a fuel) (do
    free g .pp
    free g .mainPtr)

/-- `Files.copy` to the destination. -/
def filesCopy : Prog World Unit := do
  event .copy
  call g .copy

/-- `WorkerDbPort.backup`. What deletes the temporary file throws nothing. -/
def backup (fuel : Nat) : Prog World (Option Int) := do
  call g .submit
  let ended ← runBackup g { a with toDest := true } fuel
  match ended with
  | none => pure none
  | some rc => do
    Prog.onlyIf (rc = 0) (filesCopy g)
    pure (some rc)

/-- `WorkerDbPort.restore`; the copy is that of the source to the guest's directory. -/
def restore (fuel : Nat) : Prog World (Option Int) := do
  call g .copy
  call g .submit
  runBackup g { a with toDest := false } fuel

end

variable {g : Guest} {a : Args}

/-! ## The calls -/

section
variable {w : World}

theorem wp_call {site : Site} {Q : Unit → World → Prop} {E : World → Prop} :
    (call g site).wp Q E w ↔ if g.throws site = true then E w else Q () w := Prog.wp_throwIf

theorem wp_event {e : Event} {Q : Unit → World → Prop} {E : World → Prop} :
    (event e).wp Q E w ↔ Q () { w with events := w.events ++ [e] } := Iff.rfl

theorem call_keeps (site : Site) (P : World → Prop) : (call g site).Keeps P := Prog.keeps_throwIf _

theorem sqlite3ExtendedErrcode_keeps (h : Handle) (P : World → Prop) : (sqlite3ExtendedErrcode g h).Keeps P :=
  (call_keeps _ P).bind fun _ => Prog.keeps_get.bind fun _ => Prog.keeps_pure _

/-- Either there is a backup object, with its destination, or a code on that. -/
theorem sqlite3BackupInit_spec {dest : Handle} : (sqlite3BackupInit g dest).wp
    (fun made s => g.throws .backupInit = false ∧ s.steps = w.steps ∧
      ((made = true ∧ g.initError = none ∧ s.events = w.events ++ [.init] ∧ s.dest = dest) ∨
        (made = false ∧ g.initError = some (s.errcode dest) ∧ s.events = w.events)))
    (fun s => g.throws .backupInit = true ∧ s = w) w := by
  unfold sqlite3BackupInit
  rw [Prog.wp_bind, wp_call]
  split
  · next h => exact ⟨h, rfl⟩
  · next h =>
    have h : g.throws .backupInit = false := Bool.not_eq_true _ ▸ h
    split
    · next rc hrc => exact ⟨h, rfl, .inr ⟨rfl, hrc.trans (congrArg some (if_pos rfl).symm), rfl⟩⟩
    · next hnone => exact ⟨h, rfl, .inl ⟨rfl, hnone, rfl, rfl⟩⟩

theorem wp_tryFinally {p : Prog World (Option Int)} {q : Prog World Unit} {Q : Option Int → World → Prop}
    {E : World → Prop} : (tryFinally p q).wp Q E w ↔ p.wp (fun r s => match r with
      | none => Q none s
      | some rc => q.wp (fun _ => Q (some rc)) E s) (q.wp (fun _ => E) E) w := by
  simp only [Prog.wp, tryFinally, Prog.tryFinally]
  rcases hp : p w with ⟨_ | _ | rc, s⟩
  · rcases hq : q s with ⟨_ | b, s'⟩ <;> simp only [hq]
  · rfl
  · rcases hq : q s with ⟨_ | b, s'⟩ <;> simp only [hq]

end

/-! ## The turns of the loop -/

/-- How many of the first answers were `BUSY` or `LOCKED`. -/
def busyCount (answer : Nat → Int) : Nat → Nat
  | 0 => 0
  | i + 1 => busyCount answer i + if Busy (answer i) then 1 else 0

theorem busyCount_busy {answer : Nat → Int} {i : Nat} (h : Busy (answer i)) :
    busyCount answer (i + 1) = busyCount answer i + 1 := by rw [busyCount, if_pos h]

theorem busyCount_idle {answer : Nat → Int} {i : Nat} (h : ¬ Busy (answer i)) :
    busyCount answer (i + 1) = busyCount answer i := by rw [busyCount, if_neg h, Nat.add_zero]

/-- There is a turn behind turn `i`. -/
def GoesOn (g : Guest) (a : Args) (i : Nat) : Prop :=
  g.answer i = 0 ∨ Busy (g.answer i) ∧ (busyCount g.answer i : Int) < a.nTimeoutLimit

/-- One of the calls that turn `i` makes throws. -/
def TurnThrows (g : Guest) (a : Args) (i : Nat) : Prop :=
  g.throws (.step i) = true ∨
  ((a.observer = true ∧ (g.answer i = 0 ∨ g.answer i = DONE)) ∧
    (g.throws (.remaining i) = true ∨ g.throws (.pagecount i) = true ∨ g.throws (.observer i) = true)) ∨
  ((Busy (g.answer i) ∧ (busyCount g.answer i : Int) < a.nTimeoutLimit) ∧
    (g.throws (.sleep i) = true ∨ a.sleepMillis < 0))

/-- Behind a step that answered `rc`. -/
def World.stepped (w : World) (rc : Int) : World := { w with steps := w.steps ++ [rc] }

theorem not_busy_zero : ¬ Busy 0 := by decide

theorem not_busy_done : ¬ Busy DONE := by decide

section
variable {i : Nat} {w : World}

theorem call_of_false {site : Site} (h : g.throws site = false) : call g site w = (some (), w) := by
  rw [call, h]
  rfl

theorem call_of_true {site : Site} (h : g.throws site = true) : call g site w = (none, w) := by
  rw [call, h]
  rfl

theorem sqlite3BackupStep_of_false (h : g.throws (.step i) = false) :
    sqlite3BackupStep g i w = (some (g.answer i), w.stepped (g.answer i)) := by
  rw [sqlite3BackupStep, Prog.bind_of_some (call_of_false h)]
  rfl

theorem progress_of_not (h : ¬ (g.throws (.remaining i) = true ∨ g.throws (.pagecount i) = true ∨
    g.throws (.observer i) = true)) : progress g i w = (some (), w) := by
  simp only [not_or, Bool.not_eq_true] at h
  rw [progress, Prog.bind_of_some (call_of_false h.1), Prog.bind_of_some (call_of_false h.2.1), call_of_false h.2.2]

theorem progress_of (h : g.throws (.remaining i) = true ∨ g.throws (.pagecount i) = true ∨
    g.throws (.observer i) = true) : progress g i w = (none, w) := by
  unfold progress
  cases hr : g.throws (.remaining i) with
  | true => exact Prog.bind_of_none (call_of_true hr)
  | false =>
    rw [Prog.bind_of_some (call_of_false hr)]
    cases hp : g.throws (.pagecount i) with
    | true => exact Prog.bind_of_none (call_of_true hp)
    | false =>
      rw [Prog.bind_of_some (call_of_false hp)]
      exact call_of_true (by simpa [hr, hp] using h)

/-- A turn up to the observer, when that much of it does not throw. -/
theorem stepLoop_answered (fuel : Nat) (n : Int) (hs : g.throws (.step i) = false)
    (ho : (a.observer = true ∧ (g.answer i = 0 ∨ g.answer i = DONE)) →
      ¬ (g.throws (.remaining i) = true ∨ g.throws (.pagecount i) = true ∨ g.throws (.observer i) = true)) :
    stepLoop g a (fuel + 1) i n w =
      (if Busy (g.answer i) then
        if n ≥ a.nTimeoutLimit then pure (some (g.answer i))
        else do
          sleep g a i
          stepLoop g a fuel (i + 1) (n + 1)
      else if g.answer i = 0 then stepLoop g a fuel (i + 1) n
      else pure (some (g.answer i))) (w.stepped (g.answer i)) := by
  rw [stepLoop, Prog.bind_of_some (sqlite3BackupStep_of_false hs)]
  refine Prog.bind_of_some (a := ()) ?_
  unfold Prog.onlyIf
  split
  · next h => exact progress_of_not (ho h)
  · rfl

end

theorem stepLoop_throws {i : Nat} (fuel : Nat) (w : World) (h : TurnThrows g a i) :
    ∃ steps, stepLoop g a (fuel + 1) i (busyCount g.answer i) w = (none, { w with steps := steps }) := by
  by_cases hs : g.throws (.step i) = true
  · exact ⟨w.steps, by rw [stepLoop, sqlite3BackupStep, Prog.bind_of_none (Prog.bind_of_none (call_of_true hs))]⟩
  have hs : g.throws (.step i) = false := Bool.not_eq_true _ ▸ hs
  refine ⟨w.steps ++ [g.answer i], ?_⟩
  by_cases ho : (a.observer = true ∧ (g.answer i = 0 ∨ g.answer i = DONE)) ∧
      (g.throws (.remaining i) = true ∨ g.throws (.pagecount i) = true ∨ g.throws (.observer i) = true)
  · rw [stepLoop, Prog.bind_of_some (sqlite3BackupStep_of_false hs)]
    refine Prog.bind_of_none ?_
    rw [Prog.onlyIf, if_pos ho.1]
    exact progress_of ho.2
  rcases h with h | h | ⟨⟨hb, hlim⟩, hsleep⟩
  · rw [hs] at h
    cases h
  · exact absurd h ho
  · rw [stepLoop_answered fuel _ hs fun h h' => ho ⟨h, h'⟩, if_pos hb, if_neg (Int.not_le.mpr hlim)]
    refine Prog.bind_of_none ?_
    have hthrow : (g.throws (.sleep i) || decide (a.sleepMillis < 0)) = true := by simpa using hsleep
    rw [sleep, hthrow]
    rfl

/-- What a turn that does not throw comes to. -/
theorem stepLoop_goes {i : Nat} (fuel : Nat) (w : World) (h : ¬ TurnThrows g a i) (hg : GoesOn g a i) :
    stepLoop g a (fuel + 1) i (busyCount g.answer i) w =
      stepLoop g a fuel (i + 1) (busyCount g.answer (i + 1)) (w.stepped (g.answer i)) := by
  simp only [TurnThrows, not_or, not_and, Bool.not_eq_true, and_imp] at h
  obtain ⟨hs, ho, hsleep⟩ := h
  rw [stepLoop_answered fuel _ hs fun h => by simpa using ho h.1 h.2]
  rcases hg with h0 | ⟨hb, hlim⟩
  · have hidle : ¬ Busy (g.answer i) := h0 ▸ not_busy_zero
    rw [if_neg hidle, if_pos h0, busyCount_idle hidle]
  · rw [if_pos hb, if_neg (Int.not_le.mpr hlim), busyCount_busy hb, Int.natCast_add, Int.natCast_one]
    refine Prog.bind_of_some (a := ()) ?_
    have hreturn : (g.throws (.sleep i) || decide (a.sleepMillis < 0)) = false := by
      simpa using hsleep hb hlim
    rw [sleep, hreturn]
    rfl

theorem stepLoop_stops {i : Nat} (fuel : Nat) (w : World) (h : ¬ TurnThrows g a i) (hg : ¬ GoesOn g a i) :
    stepLoop g a (fuel + 1) i (busyCount g.answer i) w = (some (some (g.answer i)), w.stepped (g.answer i)) := by
  simp only [TurnThrows, not_or, not_and, Bool.not_eq_true, and_imp] at h
  obtain ⟨hs, ho, -⟩ := h
  simp only [GoesOn, not_or, not_and, Int.not_lt] at hg
  rw [stepLoop_answered fuel _ hs fun h => by simpa using ho h.1 h.2]
  split
  · next hb =>
    rw [if_pos (hg.2 hb)]
    rfl
  · rw [if_neg hg.1]
    rfl

/-! ## When the loop ends -/

/-- The program is out of the loop, with a result or an exception. -/
def Ended (result : Option (Option Int) × World) : Prop := result.1 ≠ some none

instance (result : Option (Option Int) × World) : Decidable (Ended result) :=
  inferInstanceAs (Decidable (result.1 ≠ some none))

/-- A turn that stops the loop, some turns ahead. -/
theorem stepLoop_ended : ∀ (d i : Nat) (w : World), TurnThrows g a (i + d) ∨ ¬ GoesOn g a (i + d) →
    Ended (stepLoop g a (d + 1) i (busyCount g.answer i) w) := by
  intro d
  induction d with
  | zero =>
    intro i w h
    by_cases ht : TurnThrows g a i
    · obtain ⟨steps, he⟩ := stepLoop_throws 0 w ht
      rw [he]
      exact fun h => by cases h
    · rw [stepLoop_stops 0 w ht (h.resolve_left ht)]
      exact fun h => by cases h
  | succ d ih =>
    intro i w h
    by_cases ht : TurnThrows g a i
    · obtain ⟨steps, he⟩ := stepLoop_throws (d + 1) w ht
      rw [he]
      exact fun h => by cases h
    · by_cases hg : GoesOn g a i
      · rw [stepLoop_goes (d + 1) w ht hg]
        have hturn : i + (d + 1) = i + 1 + d := by omega
        exact ih (i + 1) _ (hturn ▸ h)
      · rw [stepLoop_stops (d + 1) w ht hg]
        exact fun h => by cases h

/-- Without one it never ends. -/
theorem stepLoop_runs (hall : ∀ i, ¬ TurnThrows g a i ∧ GoesOn g a i) : ∀ (fuel i : Nat) (w : World),
    ¬ Ended (stepLoop g a fuel i (busyCount g.answer i) w) := by
  intro fuel
  induction fuel with
  | zero => exact fun i w h => h rfl
  | succ fuel ih =>
    intro i w
    rw [stepLoop_goes fuel w (hall i).1 (hall i).2]
    exact ih (i + 1) _

theorem stepLoop_ends_iff_turn (w : World) :
    (∃ fuel, Ended (stepLoop g a fuel 0 0 w)) ↔ ∃ i, TurnThrows g a i ∨ ¬ GoesOn g a i := by
  constructor
  · intro ⟨fuel, h⟩
    by_contra hnone
    have hall : ∀ i, ¬ TurnThrows g a i ∧ GoesOn g a i := fun i =>
      ⟨fun ht => hnone ⟨i, .inl ht⟩, Classical.not_not.mp fun hg => hnone ⟨i, .inr hg⟩⟩
    exact stepLoop_runs hall fuel 0 w h
  · intro ⟨i, h⟩
    exact ⟨i + 1, stepLoop_ended i 0 w (by rwa [Nat.zero_add])⟩

/-- What a step comes upon. -/
inductive Meets where
  | nothing
  | busy
  | locked
  deriving DecidableEq

/-- The pages that are left when a step has copied some of these. -/
def copyPages (n : Int) (remaining : Nat) : Nat :=
  if n = 0 then remaining else if n < 0 then 0 else remaining - n.toNat

/-- The pages that are left in front of a step, of a source that nobody writes to. -/
def remaining (n : Int) (N : Nat) (pattern : Nat → Meets) : Nat → Nat
  | 0 => N
  | i + 1 => if pattern i = .nothing then copyPages n (remaining n N pattern i) else remaining n N pattern i

/-- `sqlite3_backup_step(p, n)`, call after call. -/
def answers (n : Int) (N : Nat) (pattern : Nat → Meets) (i : Nat) : Int :=
  match pattern i with
  | .busy => 5
  | .locked => 6
  | .nothing => if copyPages n (remaining n N pattern i) = 0 then DONE else 0

/-- The guest whose steps copy a source of `N` pages. -/
def Guest.copying (g : Guest) (n : Int) (N : Nat) (pattern : Nat → Meets) : Guest :=
  { g with answer := answers n N pattern }

/-- How many of the first steps came upon a lock. -/
def waits (pattern : Nat → Meets) : Nat → Nat
  | 0 => 0
  | i + 1 => waits pattern i + if pattern i = .nothing then 0 else 1

section
variable {n : Int} {N : Nat} {pattern : Nat → Meets}

theorem busy_answers_iff {i : Nat} : Busy (answers n N pattern i) ↔ pattern i ≠ .nothing := by
  unfold answers
  cases pattern i with
  | busy => simp [Busy]
  | locked => simp [Busy]
  | nothing =>
    simp only [ne_eq, not_true_eq_false, iff_false]
    split
    · exact not_busy_done
    · exact not_busy_zero

theorem busyCount_answers : ∀ i, busyCount (answers n N pattern) i = waits pattern i
  | 0 => rfl
  | i + 1 => by
    rw [busyCount, waits, busyCount_answers i]
    by_cases h : pattern i = .nothing
    · rw [if_neg (fun hb => busy_answers_iff.mp hb h), if_pos h]
    · rw [if_pos (busy_answers_iff.mpr h), if_neg h]

theorem copyPages_le (r : Nat) : copyPages n r ≤ r := by
  unfold copyPages
  split
  · exact Nat.le_refl r
  · split <;> omega

theorem copyPages_lt {r : Nat} (hn : n ≠ 0) (hr : copyPages n r ≠ 0) : copyPages n r < r := by
  unfold copyPages at hr ⊢
  rw [if_neg hn] at hr ⊢
  split at hr
  · exact absurd rfl hr
  · rw [if_neg ‹_›]
    omega

theorem remaining_le : ∀ i, remaining n N pattern i ≤ N
  | 0 => Nat.le_refl N
  | i + 1 => by
    rw [remaining]
    have := remaining_le i
    split
    · exact Nat.le_trans (copyPages_le _) this
    · exact this

/-- A turn that goes on has waited or copied a page. -/
theorem turn_progress {i : Nat} (hn : n ≠ 0 ∨ N = 0) (hg : GoesOn (g.copying n N pattern) a i) :
    waits pattern i + remaining n N pattern (i + 1) < waits pattern (i + 1) + remaining n N pattern i := by
  by_cases hp : pattern i = .nothing
  · have h0 : answers n N pattern i = 0 := hg.resolve_right fun h => busy_answers_iff.mp h.1 hp
    have hleft : copyPages n (remaining n N pattern i) ≠ 0 := by
      intro hleft
      simp only [answers, hp, hleft, if_true] at h0
      cases h0
    have hlt : copyPages n (remaining n N pattern i) < remaining n N pattern i := by
      rcases hn with hn | hN
      · exact copyPages_lt hn hleft
      · have := copyPages_le (n := n) (remaining n N pattern i)
        have : remaining n N pattern i ≤ N := remaining_le i
        omega
    rw [waits, remaining, if_pos hp, if_pos hp]
    omega
  · rw [waits, remaining, if_neg hp, if_neg hp]
    omega

theorem waits_le_of_goesOn (hall : ∀ i, GoesOn (g.copying n N pattern) a i) :
    ∀ i, waits pattern i ≤ a.nTimeoutLimit.toNat
  | 0 => Nat.zero_le _
  | i + 1 => by
    rw [waits]
    by_cases hp : pattern i = .nothing
    · rw [if_pos hp]
      exact waits_le_of_goesOn hall i
    · rw [if_neg hp]
      rcases hall i with h0 | ⟨-, hlim⟩
      · exact absurd (h0 ▸ busy_answers_iff.mpr hp : Busy 0) not_busy_zero
      · have hlim : (busyCount (answers n N pattern) i : Int) < a.nTimeoutLimit := hlim
        rw [busyCount_answers] at hlim
        omega

/-- Turns that all go on use up the waits that are allowed and the pages. -/
theorem turns_le (hn : n ≠ 0 ∨ N = 0) (hall : ∀ i, GoesOn (g.copying n N pattern) a i) :
    ∀ i, i + remaining n N pattern i ≤ waits pattern i + N
  | 0 => Nat.le_refl _
  | i + 1 => by
    have := turns_le hn hall i
    have := turn_progress hn (hall i)
    omega

/-- The turns all go on exactly when nothing is copied and the locks are too few. -/
theorem exists_stop_iff : (∃ i, ¬ GoesOn (g.copying n N pattern) a i) ↔
    n ≠ 0 ∨ N = 0 ∨ ∃ k, a.nTimeoutLimit.toNat < waits pattern k := by
  constructor
  · intro ⟨i, hstop⟩
    by_contra hcond
    simp only [not_or, not_not, not_exists, Nat.not_lt] at hcond
    obtain ⟨hn, hN, hwaits⟩ := hcond
    refine hstop ?_
    have hrem : ∀ j, remaining n N pattern j = N := by
      intro j
      induction j with
      | zero => rfl
      | succ j ih => rw [remaining, ih, copyPages, if_pos hn, ite_self]
    by_cases hp : pattern i = .nothing
    · refine .inl ?_
      change answers n N pattern i = 0
      simp only [answers, hp, hrem, copyPages, if_pos hn, if_neg hN]
    · refine .inr ⟨busy_answers_iff.mpr hp, ?_⟩
      change (busyCount (answers n N pattern) i : Int) < a.nTimeoutLimit
      have := hwaits (i + 1)
      rw [waits, if_neg hp] at this
      rw [busyCount_answers]
      omega
  · intro hcond
    by_contra hnone
    have hall : ∀ i, GoesOn (g.copying n N pattern) a i := fun i => Classical.not_not.mp fun h => hnone ⟨i, h⟩
    have hwaits := waits_le_of_goesOn hall
    have hturns : n ≠ 0 ∨ N = 0 → False := fun hn => by
      have := turns_le hn hall (a.nTimeoutLimit.toNat + N + 1)
      have := hwaits (a.nTimeoutLimit.toNat + N + 1)
      omega
    rcases hcond with hn | hN | ⟨k, hk⟩
    · exact hturns (.inl hn)
    · exact hturns (.inr hN)
    · exact Nat.not_lt.mpr (hwaits k) hk

end

/-- **The backup loop ends exactly when the step size is not 0, or there is
nothing to copy, or more locks are met than `nTimeoutLimit` allows, or a call in it
throws.** -/
theorem stepLoop_ends_iff (g : Guest) (a : Args) (N : Nat) (pattern : Nat → Meets) (w : World) :
    (∃ fuel, Ended (stepLoop (g.copying a.pagesPerStep N pattern) a fuel 0 0 w)) ↔
      a.pagesPerStep ≠ 0 ∨ N = 0 ∨ (∃ k, a.nTimeoutLimit.toNat < waits pattern k) ∨
        ∃ i, TurnThrows (g.copying a.pagesPerStep N pattern) a i := by
  rw [stepLoop_ends_iff_turn, exists_or, exists_stop_iff]
  tauto

/-- A guest that throws nothing; its first step copies everything. -/
def quiet : Guest where
  throws _ := false
  null _ := false
  openRc := 0
  openHandle := true
  initError := none
  initError_ne := by decide
  answer _ := DONE

/-- The defaults of `WorkerDB`, with an observer. -/
def defaults : Args where
  toDest := true
  observer := true
  sleepMillis := 100
  nTimeoutLimit := 3
  pagesPerStep := 100

/-- One page, no locks, and a step size of 0. -/
theorem stepLoop_zero_runs : ¬ ∃ fuel, Ended (stepLoop (quiet.copying 0 1 fun _ => .nothing)
    { defaults with pagesPerStep := 0 } fuel 0 0 (World.start fun _ => 0)) := by
  rw [stepLoop_ends_iff_turn]
  rintro ⟨i, h | h⟩
  · rcases h with h | ⟨-, h⟩ | ⟨-, h⟩
    · cases h
    · rcases h with h | h | h <;> cases h
    · rcases h with h | h
      · cases h
      · exact absurd h (by decide)
  · refine exists_stop_iff.not.mpr ?_ ⟨i, h⟩
    have hwaits : ∀ k, waits (fun _ => .nothing) k = 0 := by
      intro k
      induction k with
      | zero => rfl
      | succ k ih => rw [waits, ih]; rfl
    simp [hwaits]

end RunBackup

end Sqlol

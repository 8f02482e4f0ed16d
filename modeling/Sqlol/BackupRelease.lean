/-
What `runBackup` releases on its exits: the two blocks, the handle of the file and
the backup object.

The `finally` blocks cover the handle and the blocks, but `sqlite3BackupFinish`
stands behind the loop and in none of them: what is thrown in the loop passes by
it, and the handle is closed over a backup that is not finished
(`runBackup_released_iff`).
-/
import Sqlol.RunBackup

namespace Sqlol

namespace RunBackup

variable {g : Guest} {a : Args}

/-- Everything that was had is released once, the backup object before the handle. -/
structure Released (events : List Event) : Prop where
  blocks : ∀ b, .malloc b ∈ events → events.count (.free b) = 1
  handle : .opened ∈ events → events.count .close = 1
  backup : .init ∈ events → events.count .finish = 1 ∧ events.idxOf .finish < events.idxOf .close

theorem released_iff (events : List Event) : Released events ↔
    (.malloc .pp ∈ events → events.count (.free .pp) = 1) ∧
    (.malloc .mainPtr ∈ events → events.count (.free .mainPtr) = 1) ∧
    (.opened ∈ events → events.count .close = 1) ∧
    (.init ∈ events → events.count .finish = 1 ∧ events.idxOf .finish < events.idxOf .close) := by
  constructor
  · exact fun h => ⟨h.blocks .pp, h.blocks .mainPtr, h.handle, h.backup⟩
  · intro ⟨hpp, hmain, hhandle, hbackup⟩
    exact ⟨fun b => by cases b; exacts [hpp, hmain], hhandle, hbackup⟩

instance (events : List Event) : Decidable (Released events) := decidable_of_iff' _ (released_iff events)

/-- There is a backup object at some time. -/
def BackupMade (g : Guest) : Prop :=
  g.throws .sqlPtrPath = false ∧ g.throws .openV2 = false ∧ g.openRc = 0 ∧ g.throws .sqlPtrSchema = false ∧
    g.throws .backupInit = false ∧ g.initError = none

/-- The loop comes to turn `i`, if nothing throws before. -/
def Reached (g : Guest) (a : Args) (i : Nat) : Prop := ∀ j < i, GoesOn g a j

/-- Nothing throws in the loop. -/
def LoopQuiet (g : Guest) (a : Args) : Prop := ∀ i, Reached g a i → ¬ TurnThrows g a i

/-- The loop, when it ends: it throws exactly when one of the turns it comes to does. -/
theorem stepLoop_quiet : ∀ (fuel i : Nat) (w : World), Reached g a i → (∀ j < i, ¬ TurnThrows g a j) →
    (stepLoop g a fuel i (busyCount g.answer i)).wp
      (fun r w' => w'.events = w.events ∧ (r.isSome → LoopQuiet g a))
      (fun w' => w'.events = w.events ∧ ¬ LoopQuiet g a) w := by
  intro fuel
  induction fuel with
  | zero => exact fun i w _ _ => ⟨rfl, fun h => by cases h⟩
  | succ fuel ih =>
    intro i w hreached hquiet
    by_cases ht : TurnThrows g a i
    · obtain ⟨steps, he⟩ := stepLoop_throws fuel w ht
      rw [Prog.wp, he]
      exact ⟨rfl, fun h => h i hreached ht⟩
    have hquiet' : ∀ j < i + 1, ¬ TurnThrows g a j := fun j hj =>
      (Nat.lt_succ_iff_lt_or_eq.mp hj).elim (hquiet j) fun h => h ▸ ht
    by_cases hg : GoesOn g a i
    · have hreached' : Reached g a (i + 1) := fun j hj =>
        (Nat.lt_succ_iff_lt_or_eq.mp hj).elim (hreached j) fun h => h ▸ hg
      have := ih (i + 1) (w.stepped (g.answer i)) hreached' hquiet'
      rwa [Prog.wp, stepLoop_goes fuel w ht hg]
    · rw [Prog.wp, stepLoop_stops fuel w ht hg]
      -- No turn behind this one is reached.
      refine ⟨rfl, fun _ j hj => ?_⟩
      by_cases hlt : j < i + 1
      · exact hquiet' j hlt
      · exact absurd (hj i (by omega)) hg

/-! ### The events of a whole call -/

section
open Classical

/-- What becomes of the backup object. -/
noncomputable def backupEvents (g : Guest) (a : Args) : List Event :=
  if BackupMade g then if LoopQuiet g a then [.init, .finish] else [.init] else []

/-- What is done between the two blocks' `malloc` and their `free`. -/
noncomputable def fileEvents (g : Guest) (a : Args) : List Event :=
  if g.throws .sqlPtrPath = true ∨ g.throws .openV2 = true then []
  else if g.openRc = 0 then .opened :: backupEvents g a ++ [.close]
  else if g.openHandle then [.opened, .close] else [.close]

/-- A `malloc` that returns. -/
def mallocEvents (g : Guest) (b : Block) : List Event := if g.null b then [] else [.malloc b]

/-- The two `free`s, of which the first may throw. -/
def freeEvents (g : Guest) : List Event := if g.throws (.free .pp) then [.free .pp] else [.free .pp, .free .mainPtr]

/-- All that `runBackup` does with what it holds. -/
noncomputable def runEvents (g : Guest) (a : Args) : List Event :=
  if g.throws (.malloc .pp) then []
  else if g.throws (.malloc .mainPtr) then mallocEvents g .pp
  else mallocEvents g .pp ++ mallocEvents g .mainPtr ++ fileEvents g a ++ freeEvents g

/-- However a program leaves, unless it is in the loop still, these are the events behind it. -/
def Leaves (p : Prog World (Option Int)) (w : World) (events : List Event) : Prop :=
  p.wp (fun r w' => r.isSome → w'.events = events) (fun w' => w'.events = events) w

variable {w : World}

/-- Behind `finish`, nothing is released by the body itself. -/
theorem finishBackup_leaves : Leaves (finishBackup g a) w (w.events ++ [.finish]) := by
  have hfinish : (sqlite3BackupFinish g).wp (fun _ s => s.events = w.events ++ [.finish])
      (fun s => s.events = w.events ++ [.finish]) w :=
    Prog.wp_then (R := fun _ s => s.events = w.events ++ [.finish]) (wp_event.mpr rfl)
      fun _ s hs => Prog.wp_then (call_keeps _ _ s hs) fun _ _ h => h
  have hrest : Prog.Keeps (fun s => s.events = w.events ++ [.finish]) (do
      let frc ← sqlite3ExtendedErrcode g a.destHandle
      Prog.onlyIf (a.toDest = true ∧ frc = 0) (do
        call g .sqlPtrPragma
        call g .exec)
      pure (some frc)) :=
    (sqlite3ExtendedErrcode_keeps _ _).bind fun _ =>
      (((call_keeps _ _).bind fun _ => call_keeps _ _).onlyIf).bind fun _ => Prog.keeps_pure _
  exact Prog.wp_then hfinish fun _ s hs => Prog.wp_mono (hrest s hs) (fun _ _ h _ => h) fun _ h => h

theorem withFile_leaves (fuel : Nat) (hpath : g.throws .sqlPtrPath = false) (hopen : g.throws .openV2 = false)
    (hrc : g.openRc = 0) : Leaves (withFile g a fuel) w (w.events ++ backupEvents g a) := by
  have hmade : BackupMade g ↔
      g.throws .sqlPtrSchema = false ∧ g.throws .backupInit = false ∧ g.initError = none := by
    simp only [BackupMade, hpath, hopen, hrc, true_and]
  have hnone : ¬ BackupMade g → w.events ++ backupEvents g a = w.events := fun h => by
    rw [backupEvents, if_neg h, List.append_nil]
  unfold Leaves withFile
  rw [Prog.wp_bind, wp_call]
  split
  · next h => exact (hnone (by simp [hmade, h])).symm
  rename_i hschema
  have hschema : g.throws .sqlPtrSchema = false := Bool.not_eq_true _ ▸ hschema
  refine Prog.wp_bind.mpr (Prog.wp_mono sqlite3BackupInit_spec ?_ ?_)
  · rintro made s ⟨hinit, -, ⟨rfl, herr, hs, -⟩ | ⟨rfl, herr, hs⟩⟩
    · have hbackup : BackupMade g := hmade.mpr ⟨hschema, hinit, herr⟩
      rw [if_neg (by decide), backupEvents, if_pos hbackup]
      refine Prog.wp_bind.mpr (Prog.wp_mono (stepLoop_quiet fuel 0 s (fun j hj => by omega) fun j hj => by omega) ?_ ?_)
      · rintro r s' ⟨hs', hquiet⟩
        cases r with
        | none => exact fun h => by cases h
        | some rc =>
          have hfinish := finishBackup_leaves (g := g) (a := a) (w := s')
          rw [if_pos (hquiet rfl)]
          rw [hs', hs, List.append_assoc] at hfinish
          exact hfinish
      · rintro s' ⟨hs', hthrows⟩
        rw [if_neg hthrows, hs', hs]
    · rw [if_pos rfl, hnone (by simp [hmade, herr])]
      have hrest : Prog.Keeps (fun s => s.events = w.events) (do
          let rc ← sqlite3ExtendedErrcode g a.destHandle
          pure (some rc)) := (sqlite3ExtendedErrcode_keeps _ _).bind fun _ => Prog.keeps_pure _
      exact Prog.wp_mono (hrest s hs) (fun _ _ h _ => h) fun _ h => h
  · rintro s ⟨hinit, rfl⟩
    exact (hnone (by simp [hmade, hinit])).symm

/-- `close` is called, and whatever it does the event is there. -/
theorem sqlite3CloseV2_events : (sqlite3CloseV2 g).wp (fun _ s => s.events = w.events ++ [.close])
    (fun s => s.events = w.events ++ [.close]) w :=
  Prog.wp_then (R := fun _ s => s.events = w.events ++ [.close]) (wp_event.mpr rfl) fun _ s hs => call_keeps _ _ s hs

/-- What both ways out of a `try` come to behind the `finally`. -/
theorem tryFinally_leaves {p : Prog World (Option Int)} {q : Prog World Unit} {events : List Event}
    (more : List Event) (hp : Leaves p w events)
    (hq : ∀ s, s.events = events → q.wp (fun _ s' => s'.events = events ++ more)
      (fun s' => s'.events = events ++ more) s) : Leaves (tryFinally p q) w (events ++ more) := by
  refine wp_tryFinally.mpr (Prog.wp_mono hp (fun r s h => ?_) fun s h => hq s h)
  cases r with
  | none => exact fun h => by cases h
  | some rc => exact Prog.wp_mono (hq s (h rfl)) (fun _ _ h' _ => h') fun _ h' => h'

theorem withBlocks_leaves (fuel : Nat) : Leaves (withBlocks g a fuel) w (w.events ++ fileEvents g a) := by
  unfold Leaves withBlocks sqlite3OpenV2
  rw [Prog.wp_bind, wp_call]
  split
  · next h => simp [fileEvents, h]
  rename_i hpath
  rw [Prog.wp_bind, Prog.wp_bind, wp_call]
  split
  · next h => simp [fileEvents, h]
  rename_i hopen
  have hevents : fileEvents g a = if g.openRc = 0 then .opened :: backupEvents g a ++ [.close]
      else if g.openHandle then [.opened, .close] else [.close] := by
    rw [fileEvents, if_neg (not_or.mpr ⟨hpath, hopen⟩)]
  simp only [Bool.not_eq_true] at hpath hopen
  rw [Prog.wp_bind, Prog.wp_onlyIf]
  by_cases hrc : g.openRc = 0
  · rw [if_pos (.inl hrc), wp_event, Prog.wp_pure, if_neg (not_not.mpr hrc), hevents, if_pos hrc]
    have hbody := tryFinally_leaves (q := sqlite3CloseV2 g) [.close]
      (withFile_leaves (a := a) (w := { w with events := w.events ++ [.opened] }) fuel hpath hopen hrc)
      fun s hs => hs ▸ sqlite3CloseV2_events
    simpa only [Leaves, List.append_assoc, List.cons_append, List.nil_append] using hbody
  · have hclose : ∀ s : World, ((do
        sqlite3CloseV2 g
        pure (some g.openRc)) : Prog World (Option Int)).wp (fun _ s' => s'.events = s.events ++ [.close])
          (fun s' => s'.events = s.events ++ [.close]) s := fun s =>
      Prog.wp_then sqlite3CloseV2_events fun _ _ h => h
    rw [hevents, if_neg hrc]
    cases hh : g.openHandle with
    | true =>
      rw [if_pos (.inr rfl), wp_event, Prog.wp_pure, if_pos hrc]
      refine Prog.wp_mono (hclose _) (fun _ s h _ => ?_) fun s h => ?_
      · simpa using h
      · simpa using h
    | false =>
      rw [if_neg (by simp [hrc]), Prog.wp_pure, if_pos hrc]
      exact Prog.wp_mono (hclose _) (fun _ s h _ => h) fun s h => h

theorem frees_events : (do
      free g .pp
      free g .mainPtr : Prog World Unit).wp (fun _ s => s.events = w.events ++ freeEvents g)
    (fun s => s.events = w.events ++ freeEvents g) w := by
  unfold free freeEvents
  rw [Prog.wp_bind, Prog.wp_bind, wp_event, wp_call]
  split
  · rfl
  · rw [Prog.wp_bind, wp_event]
    exact call_keeps _ _ _ (by simp)

theorem runBackup_leaves (fuel : Nat) : Leaves (runBackup g a fuel) w (w.events ++ runEvents g a) := by
  have hmalloc : ∀ (b : Block) (s : World) (Q : Unit → World → Prop) (E : World → Prop),
      (malloc g b).wp Q E s ↔ if g.throws (.malloc b) = true then E s
        else Q () { s with events := s.events ++ mallocEvents g b } := by
    intro b s Q E
    rw [malloc, Prog.wp_bind, wp_call]
    rw [Prog.wp_onlyIf, wp_event, mallocEvents]
    cases g.null b with
    | true => simp
    | false => simp
  unfold Leaves runBackup runEvents
  rw [Prog.wp_bind, hmalloc]
  split
  · simp
  rw [Prog.wp_bind, hmalloc]
  split
  · rfl
  have hbody := tryFinally_leaves (freeEvents g) (withBlocks_leaves (g := g) (a := a)
    (w := { w with events := w.events ++ mallocEvents g .pp ++ mallocEvents g .mainPtr }) fuel)
    fun s hs => hs ▸ frees_events
  simpa only [Leaves, List.append_assoc] using hbody

/-- Every release is called for, and in the right order. -/
def Clean (g : Guest) (a : Args) : Prop :=
  g.throws (.malloc .pp) = true ∨
  (g.throws (.malloc .mainPtr) = true ∧ g.null .pp = true) ∨
  (g.throws (.malloc .mainPtr) = false ∧ (g.null .mainPtr = true ∨ g.throws (.free .pp) = false) ∧
    (BackupMade g → LoopQuiet g a))

theorem fileEvents_shape : (BackupMade g ∧ ¬ LoopQuiet g a ∧ fileEvents g a = [.opened, .init, .close]) ∨
    ((BackupMade g → LoopQuiet g a) ∧
      fileEvents g a ∈ [[], [.close], [.opened, .close], [.opened, .init, .finish, .close]]) := by
  unfold fileEvents
  split
  · next h =>
    refine .inr ⟨fun hmade => ?_, by simp⟩
    rcases h with h | h
    · rw [hmade.1] at h
      cases h
    · rw [hmade.2.1] at h
      cases h
  split
  · unfold backupEvents
    by_cases hmade : BackupMade g
    · by_cases hquiet : LoopQuiet g a
      · rw [if_pos hmade, if_pos hquiet]
        exact .inr ⟨fun _ => hquiet, by simp⟩
      · rw [if_pos hmade, if_neg hquiet]
        exact .inl ⟨hmade, hquiet, rfl⟩
    · rw [if_neg hmade]
      exact .inr ⟨fun h => absurd h hmade, by simp⟩
  · next hrc =>
    refine .inr ⟨fun hmade => absurd hmade.2.2.1 hrc, ?_⟩
    split <;> simp

theorem released_runEvents_iff : Released (runEvents g a) ↔ Clean g a := by
  have hgood : ∀ pp main frees : Bool,
      ∀ file ∈ [[], [.close], [.opened, .close], [.opened, .init, .finish, .close]],
      Released ((if pp then [] else [.malloc .pp]) ++ (if main then [] else [.malloc .mainPtr]) ++ file ++
        if frees then [.free .pp] else [.free .pp, .free .mainPtr]) ↔ main = true ∨ frees = false := by decide +kernel
  have hbad : ∀ pp main frees : Bool, ¬ Released ((if pp then [] else [.malloc .pp]) ++
      (if main then [] else [.malloc .mainPtr]) ++ [.opened, .init, .close] ++
        if frees then [.free .pp] else [.free .pp, .free .mainPtr]) := by decide +kernel
  have hfirst : ∀ pp : Bool, Released (if pp then [] else [.malloc .pp]) ↔ pp = true := by decide
  have hempty : Released [] := by decide
  unfold runEvents Clean mallocEvents freeEvents
  cases g.throws (.malloc .pp) with
  | true => exact iff_of_true hempty (.inl rfl)
  | false =>
    cases g.throws (.malloc .mainPtr) with
    | true =>
      simp only [Bool.false_eq_true, if_false, if_true, false_or, true_and, Bool.true_eq_false, false_and, or_false]
      exact hfirst _
    | false =>
      simp only [Bool.false_eq_true, if_false, false_or, false_and, true_and]
      rcases fileEvents_shape (g := g) (a := a) with ⟨hmade, hthrows, hfile⟩ | ⟨hquiet, hfile⟩
      · rw [hfile]
        exact iff_of_false (hbad _ _ _) fun h => hthrows (h.2 hmade)
      · rw [hgood _ _ _ _ hfile]
        exact (and_iff_left hquiet).symm

end

/-- **On an exit of `runBackup` everything is released, once and in order, exactly
when the second `malloc` does not throw behind the first, the first `free` does
not, and nothing throws between `sqlite3_backup_init` and `sqlite3_backup_finish`.** -/
theorem runBackup_released_iff (g : Guest) (a : Args) (fuel : Nat) (errcode : Handle → Int)
    (h : Ended (runBackup g a fuel (.start errcode))) :
    Released (runBackup g a fuel (.start errcode)).2.events ↔ Clean g a := by
  have hleaves := runBackup_leaves (g := g) (a := a) (w := .start errcode) fuel
  unfold Leaves Prog.wp at hleaves
  have hevents : (runBackup g a fuel (.start errcode)).2.events = runEvents g a := by
    split at hleaves
    · next r w' heq =>
      rw [heq] at h ⊢
      cases r with
      | none => exact absurd rfl h
      | some rc => exact hleaves rfl
    · next heq =>
      rw [heq]
      exact hleaves
  rw [hevents]
  exact released_runEvents_iff

/-- A backup in one step. -/
theorem runBackup_released_done : Ended (runBackup quiet defaults 1 (.start fun _ => 0)) ∧
    (Released (runBackup quiet defaults 1 (.start fun _ => 0)).2.events ↔ Clean quiet defaults) :=
  ⟨by decide, runBackup_released_iff quiet defaults 1 (fun _ => 0) (by decide)⟩

/-- The observer throws: the handle is closed over a backup that is not finished. -/
theorem runBackup_observer_throws :
    Ended (runBackup { quiet with throws := (· == .observer 0) } defaults 1 (.start fun _ => 0)) ∧
      (runBackup { quiet with throws := (· == .observer 0) } defaults 1 (.start fun _ => 0)).2.events =
        [.malloc .pp, .malloc .mainPtr, .opened, .init, .close, .free .pp, .free .mainPtr] ∧
      ¬ Released (runBackup { quiet with throws := (· == .observer 0) } defaults 1 (.start fun _ => 0)).2.events := by
  decide

end RunBackup

end Sqlol

/-
What `runBackup` returns: the code is read from one of the two handles behind
`finish`, not taken from the loop. It is 0 exactly when the last step was `DONE`,
and `backup` copies to the destination only then (`backup_code`).
-/
import Sqlol.RunBackup

namespace Sqlol

namespace RunBackup

variable {g : Guest} {a : Args}

/-- The loop is left with the code of the last step, which is not 0. -/
theorem stepLoop_code : ∀ (fuel i : Nat) (n : Int) (w : World), (stepLoop g a fuel i n).wp
    (fun r s => s.dest = w.dest ∧ ∀ rc, r = some rc → rc ≠ 0 ∧ s.lastStep = some rc) (fun _ => True) w := by
  intro fuel
  induction fuel with
  | zero => exact fun _ _ w => ⟨rfl, fun rc h => by cases h⟩
  | succ fuel ih =>
    intro i n w
    have hstep : (sqlite3BackupStep g i).wp (fun rc s => s.dest = w.dest ∧ s.lastStep = some rc)
        (fun _ => True) w := by
      rw [sqlite3BackupStep, Prog.wp_bind, wp_call]
      split
      · trivial
      · exact ⟨rfl, List.getLast?_concat⟩
    refine Prog.wp_then hstep fun rc s hs => ?_
    have hprogress : (progress g i).Keeps fun s => s.dest = w.dest ∧ s.lastStep = some rc :=
      (call_keeps _ _).bind fun _ => (call_keeps _ _).bind fun _ => call_keeps _ _
    refine Prog.wp_then (hprogress.onlyIf.returns hs) fun _ s hs => ?_
    have hnext : ∀ (n : Int) (s : World), s.dest = w.dest → (stepLoop g a fuel (i + 1) n).wp
        (fun r s => s.dest = w.dest ∧ ∀ rc, r = some rc → rc ≠ 0 ∧ s.lastStep = some rc) (fun _ => True) s :=
      fun n s hs => hs ▸ ih (i + 1) n s
    split
    · next hbusy =>
      split
      · refine ⟨hs.1, fun rc' h => ?_⟩
        cases h
        exact ⟨fun h0 => not_busy_zero (h0 ▸ hbusy), hs.2⟩
      · have hsleep : (sleep g a i).Keeps fun s => s.dest = w.dest := Prog.keeps_throwIf _
        exact Prog.wp_then (hsleep.returns hs.1) fun _ s hs => hnext _ s hs
    · split
      · exact hnext _ s hs.1
      · next h0 =>
        refine ⟨hs.1, fun rc' h => ?_⟩
        cases h
        exact ⟨h0, hs.2⟩

/-- The code that is returned is 0 exactly behind a last step of `DONE`. -/
def CodeRight (r : Option Int) (w : World) : Prop := ∀ rc, r = some rc → (rc = 0 ↔ w.lastStep = some DONE)

theorem finishCode_eq_zero {rc : Int} (h : rc ≠ 0) : finishCode (some rc) = 0 ↔ some rc = some DONE := by
  unfold finishCode
  by_cases hd : rc = DONE
  · simp [hd]
  · simp [hd, h]

theorem finishBackup_code {rc : Int} {w : World} (hrc : rc ≠ 0) (hlast : w.lastStep = some rc)
    (hdest : w.dest = a.destHandle) : (finishBackup g a).wp CodeRight (fun _ => True) w := by
  have hfinish : (sqlite3BackupFinish g).wp
      (fun _ s => s.errcode a.destHandle = finishCode (some rc) ∧ s.lastStep = some rc) (fun _ => True) w := by
    rw [sqlite3BackupFinish, Prog.wp_bind, wp_event, Prog.wp_bind, wp_call]
    split
    · trivial
    · refine ⟨?_, hlast⟩
      change (if a.destHandle = w.dest then finishCode w.lastStep else _) = _
      rw [if_pos hdest.symm, hlast]
  refine Prog.wp_then hfinish fun _ s hs => ?_
  rw [sqlite3ExtendedErrcode, Prog.wp_bind, Prog.wp_bind, wp_call]
  split
  · trivial
  change Prog.wp (do
    Prog.onlyIf (a.toDest = true ∧ s.errcode a.destHandle = 0) (do
      call g .sqlPtrPragma
      call g .exec)
    pure (some (s.errcode a.destHandle))) CodeRight _ s
  rw [hs.1]
  have hpragma : Prog.Keeps (fun s => s.lastStep = some rc)
      (Prog.onlyIf (a.toDest = true ∧ finishCode (some rc) = 0) (do
        call g .sqlPtrPragma
        call g .exec)) := ((call_keeps _ _).bind fun _ => call_keeps _ _).onlyIf
  refine Prog.wp_then (hpragma.returns hs.2) fun _ s' hs' rc' h => ?_
  cases h
  rw [hs']
  exact finishCode_eq_zero hrc

theorem withFile_code {w : World} (fuel : Nat) (hw : w.steps = []) :
    (withFile g a fuel).wp CodeRight (fun _ => True) w := by
  rw [withFile, Prog.wp_bind, wp_call]
  split
  · trivial
  refine Prog.wp_bind.mpr (Prog.wp_mono sqlite3BackupInit_spec ?_ fun _ _ => trivial)
  rintro made s ⟨-, hsteps, ⟨rfl, -, -, hdest⟩ | ⟨rfl, herr, -⟩⟩
  · rw [if_neg (by decide)]
    refine Prog.wp_then (stepLoop_code fuel 0 0 s) fun r s' hs' => ?_
    cases r with
    | none => exact fun rc h => by cases h
    | some rc =>
      obtain ⟨hrc, hlast⟩ := hs'.2 rc rfl
      exact finishBackup_code hrc hlast (hs'.1.trans hdest)
  · rw [if_pos rfl, sqlite3ExtendedErrcode, Prog.wp_bind, Prog.wp_bind, wp_call]
    split
    · trivial
    · intro rc h
      cases h
      have hne : s.errcode a.destHandle ≠ 0 := fun h0 => g.initError_ne (herr.trans (congrArg some h0))
      have hlast : s.lastStep = none := by rw [World.lastStep, hsteps, hw]; rfl
      rw [hlast]
      exact iff_of_false hne fun h => by cases h

/-- What is known of the code stays behind a `finally` that makes no step. -/
theorem tryFinally_code {p : Prog World (Option Int)} {q : Prog World Unit} {w : World}
    (hp : p.wp CodeRight (fun _ => True) w) (hq : ∀ P : List Int → Prop, q.Keeps fun s => P s.steps) :
    (tryFinally p q).wp CodeRight (fun _ => True) w := by
  refine wp_tryFinally.mpr (Prog.wp_mono hp (fun r s h => ?_) fun s _ => ?_)
  · cases r with
    | none => exact h
    | some rc =>
      have hkeeps : q.Keeps (CodeRight (some rc)) :=
        hq fun steps => ∀ rc', some rc = some rc' → (rc' = 0 ↔ steps.getLast? = some DONE)
      exact hkeeps.returns h
  · exact (hq fun _ => True).returns trivial

theorem event_keeps (e : Event) (P : List Int → Prop) : (event e).Keeps fun s => P s.steps :=
  Prog.keeps_modify fun _ h => h

theorem sqlite3CloseV2_keeps (P : List Int → Prop) : (sqlite3CloseV2 g).Keeps fun s => P s.steps :=
  (event_keeps _ P).bind fun _ => call_keeps _ _

theorem free_keeps (b : Block) (P : List Int → Prop) : (free g b).Keeps fun s => P s.steps :=
  (event_keeps _ P).bind fun _ => call_keeps _ _

theorem malloc_keeps (b : Block) (P : List Int → Prop) : (malloc g b).Keeps fun s => P s.steps :=
  (call_keeps _ _).bind fun _ => (event_keeps _ P).onlyIf

theorem withBlocks_code {w : World} (fuel : Nat) (hw : w.steps = []) :
    (withBlocks g a fuel).wp CodeRight (fun _ => True) w := by
  have hopen : (sqlite3OpenV2 g).wp (fun rc s => rc = g.openRc ∧ s.steps = []) (fun _ => True) w := by
    rw [sqlite3OpenV2, Prog.wp_bind, wp_call]
    split
    · trivial
    · exact Prog.wp_then ((event_keeps .opened (· = [])).onlyIf.returns hw) fun _ _ h => ⟨rfl, h⟩
  rw [withBlocks, Prog.wp_bind, wp_call]
  split
  · trivial
  refine Prog.wp_then hopen fun rc s h => ?_
  obtain ⟨hrc, hs⟩ := h
  by_cases h0 : rc = 0
  · rw [if_neg (not_not.mpr h0)]
    exact tryFinally_code (withFile_code fuel hs) sqlite3CloseV2_keeps
  · rw [if_pos h0]
    refine Prog.wp_then ((sqlite3CloseV2_keeps (· = [])).returns hs) fun _ s' hs' rc' h => ?_
    cases h
    rw [World.lastStep, hs']
    exact iff_of_false h0 fun h => by cases h

theorem runBackup_code {w : World} (fuel : Nat) (hw : w.steps = []) :
    (runBackup g a fuel).wp CodeRight (fun _ => True) w := by
  have hmalloc : ∀ b s, s.steps = [] → (malloc g b).wp (fun _ s => s.steps = []) (fun _ => True) s := fun b s hs =>
    (malloc_keeps b (· = [])).returns hs
  refine Prog.wp_then (hmalloc _ _ hw) fun _ s hs => Prog.wp_then (hmalloc _ _ hs) fun _ s hs => ?_
  exact tryFinally_code (withBlocks_code fuel hs) fun P => (free_keeps _ P).bind fun _ => free_keeps _ P

/-! ### Nothing but `backup` copies -/

/-- Nothing was copied to the destination. -/
def NoCopy (w : World) : Prop := .copy ∉ w.events

theorem event_noCopy {e : Event} (he : e ≠ .copy) : (event e).Keeps NoCopy :=
  Prog.keeps_modify fun _ hw h => (List.mem_append.mp h).elim hw fun h => he (List.mem_singleton.mp h).symm

theorem stepLoop_noCopy : ∀ (fuel i : Nat) (n : Int), (stepLoop g a fuel i n).Keeps NoCopy := by
  intro fuel
  induction fuel with
  | zero => exact fun _ _ => Prog.keeps_pure _
  | succ fuel ih =>
    intro i n
    have hstep : (sqlite3BackupStep g i).Keeps NoCopy :=
      (call_keeps _ _).bind fun _ => Prog.Keeps.bind (Prog.keeps_modify fun _ h => h) fun _ => Prog.keeps_pure _
    have hprogress : (progress g i).Keeps NoCopy :=
      (call_keeps _ _).bind fun _ => (call_keeps _ _).bind fun _ => call_keeps _ _
    refine hstep.bind fun rc => hprogress.onlyIf.bind fun _ => ?_
    split
    · split
      · exact Prog.keeps_pure _
      · exact (Prog.keeps_throwIf _).bind fun _ => ih _ _
    · split
      · exact ih _ _
      · exact Prog.keeps_pure _

theorem finishBackup_noCopy : (finishBackup g a).Keeps NoCopy := by
  have hfinish : (sqlite3BackupFinish g).Keeps NoCopy :=
    (event_noCopy (by decide)).bind fun _ => (call_keeps _ _).bind fun _ => Prog.keeps_modify fun _ h => h
  exact hfinish.bind fun _ => (sqlite3ExtendedErrcode_keeps _ _).bind fun _ =>
    ((call_keeps _ _).bind fun _ => call_keeps _ _).onlyIf.bind fun _ => Prog.keeps_pure _

theorem withFile_noCopy (fuel : Nat) : (withFile g a fuel).Keeps NoCopy := by
  have hinit : (sqlite3BackupInit g a.destHandle).Keeps NoCopy := by
    refine (call_keeps _ _).bind fun _ => ?_
    split
    · exact Prog.Keeps.bind (Prog.keeps_modify fun _ h => h) fun _ => Prog.keeps_pure _
    · exact (event_noCopy (by decide)).bind fun _ =>
        Prog.Keeps.bind (Prog.keeps_modify fun _ h => h) fun _ => Prog.keeps_pure _
  refine (call_keeps _ _).bind fun _ => hinit.bind fun made => ?_
  split
  · exact (sqlite3ExtendedErrcode_keeps _ _).bind fun _ => Prog.keeps_pure _
  · refine (stepLoop_noCopy fuel 0 0).bind fun ended => ?_
    cases ended with
    | none => exact Prog.keeps_pure _
    | some rc => exact finishBackup_noCopy

theorem tryFinally_noCopy {p : Prog World (Option Int)} {q : Prog World Unit} (hp : p.Keeps NoCopy)
    (hq : q.Keeps NoCopy) : (tryFinally p q).Keeps NoCopy := fun w hw => by
  refine wp_tryFinally.mpr (Prog.wp_mono (hp w hw) (fun r s hs => ?_) fun s hs => hq s hs)
  cases r with
  | none => exact hs
  | some rc => exact hq s hs

theorem runBackup_noCopy (fuel : Nat) : (runBackup g a fuel).Keeps NoCopy := by
  have hmalloc : ∀ b, (malloc g b).Keeps NoCopy := fun b =>
    (call_keeps _ _).bind fun _ => (event_noCopy (by simp)).onlyIf
  have hfree : ∀ b, (free g b).Keeps NoCopy := fun b => (event_noCopy (by simp)).bind fun _ => call_keeps _ _
  have hclose : (sqlite3CloseV2 g).Keeps NoCopy := (event_noCopy (by decide)).bind fun _ => call_keeps _ _
  have hopen : (sqlite3OpenV2 g).Keeps NoCopy :=
    (call_keeps _ _).bind fun _ => (event_noCopy (by decide)).onlyIf.bind fun _ => Prog.keeps_pure _
  have hbody : (withBlocks g a fuel).Keeps NoCopy := by
    refine (call_keeps _ _).bind fun _ => hopen.bind fun rc => ?_
    split
    · exact hclose.bind fun _ => Prog.keeps_pure _
    · exact tryFinally_noCopy (withFile_noCopy fuel) hclose
  exact (hmalloc _).bind fun _ => (hmalloc _).bind fun _ =>
    tryFinally_noCopy hbody ((hfree _).bind fun _ => hfree _)

/-- Where `backup` has copied, the last step was `DONE`. -/
theorem backup_copies {w : World} (fuel : Nat) (hw : w.steps = []) (hcopy : NoCopy w) :
    (backup g a fuel).wp (fun _ s => .copy ∈ s.events → s.lastStep = some DONE)
      (fun s => .copy ∈ s.events → s.lastStep = some DONE) w := by
  rw [backup, Prog.wp_bind, wp_call]
  split
  · exact fun h => absurd h hcopy
  refine Prog.wp_bind.mpr (Prog.wp_mono (Prog.wp_and (runBackup_code fuel hw) (runBackup_noCopy fuel w hcopy)) ?_
    fun s hs h => absurd h hs.2)
  intro r s h
  obtain ⟨hcode, hs⟩ := h
  cases r with
  | none => exact fun h => absurd h hs
  | some rc =>
    rw [Prog.wp_bind, Prog.wp_onlyIf]
    split
    · next h0 =>
      have hlast : s.lastStep = some DONE := (hcode rc rfl).mp h0
      rw [filesCopy, Prog.wp_bind, wp_event, wp_call]
      split <;> exact fun _ => hlast
    · exact fun h => absurd h hs

/-- **A code of `runBackup` is 0 exactly when the last step was `DONE`, and `backup`
copies to the destination only then.** -/
theorem backup_code (g : Guest) (a : Args) (fuel : Nat) (errcode : Handle → Int) :
    (∀ rc w, runBackup g a fuel (.start errcode) = (some (some rc), w) → (rc = 0 ↔ w.lastStep = some DONE)) ∧
    (∀ r w, backup g a fuel (.start errcode) = (r, w) → .copy ∈ w.events → w.lastStep = some DONE) := by
  constructor
  · intro rc w h
    exact Prog.wp_returned (runBackup_code fuel rfl) h rc rfl
  · intro r w h
    have hcopies := Prog.wp_state (backup_copies (g := g) (a := a) (w := .start errcode) fuel rfl List.not_mem_nil)
    rw [h] at hcopies
    exact hcopies

/-- A backup in one step, which is copied. -/
theorem backup_code_done : (runBackup quiet defaults 1 (.start fun _ => 0)).1 = some (some 0) ∧
    .copy ∈ (backup quiet defaults 1 (.start fun _ => 0)).2.events ∧
    (backup quiet defaults 1 (.start fun _ => 0)).2.lastStep = some DONE :=
  ⟨by decide, by decide, (backup_code quiet defaults 1 fun _ => 0).2 _ _ rfl (by decide)⟩

end RunBackup

end Sqlol

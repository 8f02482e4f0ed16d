/-
Where `backup` writes: `WorkerDB.backup` and `WorkerDbPort.backup` over any
destination.

The guest backs up into a file of its own `/tmp`; the host copies that to the
destination with `Files.copy(.., REPLACE_EXISTING)`, which takes away the entry of
that name, whatever it is, and makes a new file there. Links on the way to the
directory are followed, a link in the last component is replaced itself. On the
way nobody asks for a `DbOwnerLock`, so a destination at which an owned database
lies is replaced under its runtime, and any other is safe (`backup_safe_iff`).

The temporary file has a name of its own (`nanoTime`) and is gone at the end; it
is left out. SQLite's part is `RunBackup.runBackup`; what the guest answers there,
and how far the operating system lets the copy come, are inputs.
-/
import Sqlol.RunBackup

namespace Sqlol

namespace BackupTarget

/-- What a name in a directory is. -/
inductive Node where
  | directory (d : Nat)
  | link (dir : List String) (name : String)
  | file (inode : Nat)
  deriving DecidableEq

/-- Directories and files are known by their inodes; `next` was not used yet. -/
structure Disk (Data : Type) where
  /-- The directory that a path leads to, through whatever links. -/
  dir : List String → Option Nat
  entry : Nat → String → Option Node
  content : Nat → Data
  next : Nat
  lt_next : ∀ d name i, entry d name = some (.file i) → i < next

variable {Data : Type}

namespace Disk

/-- The directories with another node under a name. -/
def setEntry (entry : Nat → String → Option Node) (d : Nat) (name : String) (node : Option Node) :
    Nat → String → Option Node :=
  fun d' name' => if d' = d ∧ name' = name then node else entry d' name'

/-- The directory and the name at which the file lies that is opened under a
path: a link in the last component is followed. -/
def locate (disk : Disk Data) : Nat → List String → String → Option (Nat × String)
  | 0, _, _ => none
  | n + 1, dir, name => (disk.dir dir).bind fun d => match disk.entry d name with
    | some (.link dir' name') => locate disk n dir' name'
    | _ => some (d, name)

/-- At most 40 links. -/
def opened (disk : Disk Data) (path : List String × String) : Option (Nat × String) := disk.locate 41 path.1 path.2

/-- The directory and the name that a path names itself. -/
def named (disk : Disk Data) (path : List String) : Option (Nat × String) :=
  path.getLast?.bind fun name => (disk.dir path.dropLast).map fun d => (d, name)

/-- The entry of a name is taken away. -/
def remove (disk : Disk Data) (d : Nat) (name : String) : Disk Data :=
  { disk with
    entry := setEntry disk.entry d name none
    lt_next := fun d' name' i h => by
      simp only [setEntry] at h
      split at h
      · cases h
      · exact disk.lt_next d' name' i h }

/-- A new file under a name. -/
def create (disk : Disk Data) (d : Nat) (name : String) (data : Data) : Disk Data where
  dir := disk.dir
  entry := setEntry disk.entry d name (some (.file disk.next))
  content := fun i => if i = disk.next then data else disk.content i
  next := disk.next + 1
  lt_next d' name' i h := by
    simp only [setEntry] at h
    split at h
    · cases h
      exact Nat.lt_succ_self _
    · exact Nat.lt_succ_of_lt (disk.lt_next d' name' i h)

end Disk

/-- How far a copy comes. -/
inductive CopyResult (Data : Type) where
  /-- It throws with nothing changed: a directory that is not empty, no permission. -/
  | refused
  /-- It throws with the old entry gone. -/
  | deleted
  /-- It throws half-way. -/
  | cut (part : Data)
  | copied

/-- `Files.copy` of a file with this content, `REPLACE_EXISTING`, and whether it returned. -/
def copy (disk : Disk Data) (dest : List String) (image : Data) (result : CopyResult Data) : Disk Data × Bool :=
  match disk.named dest with
  | none => (disk, false)
  | some (d, name) => match result with
    | .refused => (disk, false)
    | .deleted => (disk.remove d name, false)
    | .cut part => ((disk.remove d name).create d name part, false)
    | .copied => ((disk.remove d name).create d name image, true)

/-- What a backup meets: the guest, the arguments, the error codes of the two handles before it, the turns its
loop is given, what the temporary file holds at the end, and how far the copy comes. -/
structure Env (Data : Type) where
  closed : Bool
  guest : RunBackup.Guest
  args : RunBackup.Args
  errcode : RunBackup.Handle → Int
  fuel : Nat
  image : Data
  result : CopyResult Data

/-- What the caller sees of a backup. -/
inductive Outcome where
  | throws
  /-- It is in the loop of `runBackup` still. -/
  | running
  | rc (rc : Int)
  deriving DecidableEq

/-- `submit` of `runBackup`. -/
def submit (env : Env Data) : Prog RunBackup.World (Option Int) := do
  RunBackup.call env.guest .submit
  RunBackup.runBackup env.guest { env.args with toDest := true } env.fuel

/-- How that ends. -/
def runBackup (env : Env Data) : Outcome := match (submit env (RunBackup.World.start env.errcode)).1 with
  | none => .throws
  | some none => .running
  | some (some rc) => .rc rc

/-- `WorkerDbPort.backup`. -/
def portBackup (disk : Disk Data) (env : Env Data) (dest : List String) : Disk Data × Outcome :=
  if env.closed then (disk, .throws)
  else match runBackup env with
    | .rc rc =>
      if rc = 0 then
        let (disk', returned) := copy disk dest env.image env.result
        (disk', if returned then .rc 0 else .throws)
      else (disk, .rc rc)
    | outcome => (disk, outcome)

/-- `WorkerDB.backup`; a relative destination is taken from the working directory. -/
def backup (disk : Disk Data) (env : Env Data) (dest : List String) : Disk Data × Outcome :=
  if env.closed then (disk, .throws)
  -- `SQLITE_CANTOPEN`
  else if dest = [] ∨ disk.dir dest.dropLast = none then (disk, .throws)
  else portBackup disk env dest

/-! ## What is claimed -/

/-- A database's file lies there that was opened under one of these paths. -/
def OwnedAt (disk : Disk Data) (owners : List (List String × String)) (place : Option (Nat × String)) : Prop :=
  ∃ o ∈ owners, ∃ d name i, disk.opened o = some (d, name) ∧ disk.entry d name = some (.file i) ∧ place = some (d, name)

/-- No owned database is touched, and a destination that is one is refused. -/
structure Safe (disk : Disk Data) (owners : List (List String × String)) (dest : List String)
    (result : Disk Data × Outcome) : Prop where
  spared : ∀ o ∈ owners, ∀ d name i, disk.opened o = some (d, name) → disk.entry d name = some (.file i) →
    result.1.entry d name = some (.file i) ∧ result.1.content i = disk.content i
  refuses : OwnedAt disk owners (disk.named dest) → result.2 ≠ .rc 0 ∧ result.1 = disk

/-- The copy is made, at least in part. -/
def Reaches (env : Env Data) : Prop :=
  env.closed = false ∧ runBackup env = .rc 0 ∧ env.result ≠ .refused

/-! ## The copy -/

section
variable {disk : Disk Data} {owners : List (List String × String)} {env : Env Data} {dest : List String} {image : Data}
  {result : CopyResult Data}

theorem setEntry_self (entry : Nat → String → Option Node) (d : Nat) (name : String) (node : Option Node) :
    Disk.setEntry entry d name node d name = node := if_pos ⟨rfl, rfl⟩

theorem setEntry_other (entry : Nat → String → Option Node) {d d' : Nat} {name name' : String} (node : Option Node)
    (h : ¬ (d' = d ∧ name' = name)) : Disk.setEntry entry d name node d' name' = entry d' name' := if_neg h

/-- Every other entry stays, with its file. -/
theorem copy_other {d : Nat} {name : String} {i : Nat} (hfile : disk.entry d name = some (.file i))
    (hne : disk.named dest ≠ some (d, name)) :
    (copy disk dest image result).1.entry d name = some (.file i) ∧
      (copy disk dest image result).1.content i = disk.content i := by
  have hnew : i ≠ disk.next := Nat.ne_of_lt (disk.lt_next d name i hfile)
  unfold copy
  split
  · exact ⟨hfile, rfl⟩
  · next d' name' hnamed =>
    have hother : ¬ (d = d' ∧ name = name') := by
      rintro ⟨rfl, rfl⟩
      exact hne hnamed
    have hremoved : (disk.remove d' name').entry d name = some (.file i) := (setEntry_other _ _ hother).trans hfile
    have hcreated : ∀ data, ((disk.remove d' name').create d' name' data).entry d name = some (.file i) ∧
        ((disk.remove d' name').create d' name' data).content i = disk.content i :=
      fun data => ⟨(setEntry_other _ _ hother).trans hremoved, if_neg hnew⟩
    cases result with
    | refused => exact ⟨hfile, rfl⟩
    | deleted => exact ⟨hremoved, rfl⟩
    | cut part => exact hcreated part
    | copied => exact hcreated image

/-- The old file of that name is there no longer. -/
theorem copy_named {d : Nat} {name : String} {i : Nat} (hfile : disk.entry d name = some (.file i))
    (hnamed : disk.named dest = some (d, name)) (hresult : result ≠ .refused) :
    (copy disk dest image result).1.entry d name ≠ some (.file i) := by
  have hnew : i ≠ disk.next := Nat.ne_of_lt (disk.lt_next d name i hfile)
  have hcreated : ∀ data, ((disk.remove d name).create d name data).entry d name ≠ some (.file i) := by
    intro data h
    rw [show ((disk.remove d name).create d name data).entry d name = _ from setEntry_self ..] at h
    cases h
    exact hnew rfl
  simp only [copy, hnamed]
  cases result with
  | refused => exact absurd rfl hresult
  | deleted =>
    rw [show (disk.remove d name).entry d name = none from setEntry_self ..]
    simp
  | cut part => exact hcreated part
  | copied => exact hcreated image

theorem copy_refused : copy disk dest image .refused = (disk, false) := by
  unfold copy
  split <;> rfl

/-! ## The two backups -/

/-- A backup that fails, or is in its loop, with the disk as it was. -/
theorem Safe.failed {outcome : Outcome} (hfails : outcome ≠ .rc 0) : Safe disk owners dest (disk, outcome) :=
  ⟨fun _ _ _ _ _ _ hfile => ⟨hfile, rfl⟩, fun _ => ⟨hfails, rfl⟩⟩

theorem portBackup_reached (disk : Disk Data) (dest : List String) (h : Reaches env) :
    ∃ outcome, portBackup disk env dest = ((copy disk dest env.image env.result).1, outcome) := by
  obtain ⟨hopen, hrc, -⟩ := h
  simp only [portBackup, hopen, hrc, Bool.false_eq_true, if_false, if_true]
  exact ⟨_, rfl⟩

theorem portBackup_not_reached (disk : Disk Data) (dest : List String) (h : ¬ Reaches env) :
    ∃ outcome, outcome ≠ .rc 0 ∧ portBackup disk env dest = (disk, outcome) := by
  unfold portBackup
  split
  · exact ⟨.throws, by simp, rfl⟩
  · next hopen =>
    cases hrun : runBackup env with
    | throws => exact ⟨.throws, by simp, rfl⟩
    | running => exact ⟨.running, by simp, rfl⟩
    | rc rc =>
      by_cases hrc : rc = 0
      · have hrefused : env.result = .refused := by
          by_contra hne
          exact h ⟨by simpa using hopen, by rw [hrun, hrc], hne⟩
        simp only [hrc, hrefused, copy_refused, if_true]
        exact ⟨.throws, by simp, rfl⟩
      · exact ⟨.rc rc, by simpa using hrc, if_neg hrc⟩

theorem portBackup_safe_iff :
    Safe disk owners dest (portBackup disk env dest) ↔ ¬ (Reaches env ∧ OwnedAt disk owners (disk.named dest)) := by
  constructor
  · rintro hsafe ⟨hreach, howned⟩
    obtain ⟨o, -, d, name, i, -, hfile, hnamed⟩ := id howned
    obtain ⟨outcome, heq⟩ := portBackup_reached disk dest hreach
    have hsame := (hsafe.refuses howned).2
    rw [heq] at hsame
    exact copy_named hfile hnamed hreach.2.2 (by rw [show (copy _ _ _ _).1 = disk from hsame]; exact hfile)
  · intro h
    by_cases hreach : Reaches env
    · have hfree : ¬ OwnedAt disk owners (disk.named dest) := fun howned => h ⟨hreach, howned⟩
      obtain ⟨outcome, heq⟩ := portBackup_reached disk dest hreach
      rw [heq]
      refine ⟨fun o ho d name i hopened hfile => copy_other hfile fun hnamed => ?_, fun howned => absurd howned hfree⟩
      exact hfree ⟨o, ho, d, name, i, hopened, hfile, hnamed⟩
    · obtain ⟨outcome, hfails, heq⟩ := portBackup_not_reached disk dest hreach
      rw [heq]
      exact Safe.failed hfails

end

/-- **An owned database is safe from a backup exactly when it does not lie at the
destination**, or the backup fails before its copy: for both entry points, every
disk, every set of owned databases and every answer of SQLite and the host. -/
theorem backup_safe_iff (disk : Disk Data) (owners : List (List String × String)) (env : Env Data)
    (dest : List String) :
    (Safe disk owners dest (portBackup disk env dest) ↔
      ¬ (Reaches env ∧ OwnedAt disk owners (disk.named dest))) ∧
    (Safe disk owners dest (backup disk env dest) ↔
      ¬ (Reaches env ∧ OwnedAt disk owners (disk.named dest))) := by
  refine ⟨portBackup_safe_iff, ?_⟩
  unfold backup
  split
  · next hclosed =>
    refine ⟨fun _ h => ?_, fun _ => Safe.failed (by simp)⟩
    rw [h.1.1] at hclosed
    cases hclosed
  · split
    · next hparent =>
      refine ⟨fun _ h => ?_, fun _ => Safe.failed (by simp)⟩
      -- Nothing lies at a destination whose directory is not there.
      obtain ⟨-, o, -, d, name, i, -, -, hnamed⟩ := h
      rcases hparent with rfl | hdir
      · simp [Disk.named] at hnamed
      · simp [Disk.named, hdir] at hnamed
    · exact portBackup_safe_iff

/-- One database, in the directory `data`. -/
def oneDatabase : Disk String where
  dir path := if path = ["data"] then some 0 else none
  entry d name := if d = 0 ∧ name = "app.db" then some (.file 0) else none
  content _ := "live"
  next := 1
  lt_next d name i h := by
    split at h <;> cases h
    exact Nat.zero_lt_one

/-- A guest that copies all pages in one step. -/
def oneStep : RunBackup.Guest where
  throws _ := false
  null _ := false
  openRc := 0
  openHandle := true
  initError := none
  initError_ne := nofun
  answer _ := RunBackup.DONE

/-- With the defaults of `WorkerDB.backup`. -/
def oneBackup : Env String where
  closed := false
  guest := oneStep
  args := { toDest := true, observer := false, sleepMillis := 100, nTimeoutLimit := 3, pagesPerStep := 100 }
  errcode _ := 0
  fuel := 1
  image := "copy"
  result := .copied

/-- A connection backs its own database up onto itself. -/
theorem own_file_replaced :
    ¬ Safe oneDatabase [(["data"], "app.db")] ["data", "app.db"]
      (backup oneDatabase oneBackup ["data", "app.db"]) := by
  intro hsafe
  have hkept := (hsafe.spared (["data"], "app.db") (by simp) 0 "app.db" 0 (by decide) (by decide)).1
  revert hkept
  decide +kernel

end BackupTarget

end Sqlol

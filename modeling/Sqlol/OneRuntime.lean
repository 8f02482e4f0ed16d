/-
One runtime for each database file, in one JVM: `WorkerDbPort.openFile`,
`SqliteDataSource` and `SqliteWal.open` over any paths.

Two things keep a second runtime away: the registry, keyed by the absolute path
with its `.` and `..` removed by text (`normalize`, no canonical path: no link is
followed), and the lock on the sidecar `<file>.jvmlock`, which lies beside the
*name* the file was opened by. Links on the way to the directory lead both names
to one sidecar, so there the second open fails. A link in the last component,
and a second name of the file itself, have a sidecar of their own
(`two_runtimes`).
-/
import Sqlol.RuntimeRegistry

namespace Sqlol

namespace OneRuntime

open WorkerDbRuntimes (Creation)

/-- What the operating system makes of paths. A path leads to a directory,
through whatever links; a name in a directory is a link to another path, or the
file with some identity, there or made by the first open. -/
structure FileSystem (Id : Type) where
  dir : List String → Option Nat
  link : Nat → String → Option (List String × String)
  file : Nat → String → Id

namespace FileSystem

variable {Id : Type} (fs : FileSystem Id)

/-- The directory and the name a path comes to; none is ELOOP, or no such directory. -/
def locate : Nat → List String → String → Option (Nat × String)
  | 0, _, _ => none
  | n + 1, dir, name => (fs.dir dir).bind fun i => match fs.link i name with
    | none => some (i, name)
    | some (dir', name') => locate n dir' name'

/-- At most 40 links are followed. -/
def MAXSYMLINKS : Nat := 40

/-- The file that is opened under a path. -/
def underlying (dir : List String) (name : String) : Option Id :=
  (fs.locate (MAXSYMLINKS + 1) dir name).map fun p => fs.file p.1 p.2

/-- The file has no other name. -/
def Sole (i : Nat) (name : String) : Prop := ∀ j n, fs.file j n = fs.file i name → j = i ∧ n = name

end FileSystem

/-- `Path.normalize` of an absolute path. -/
def normalize (path : List String) : List String :=
  path.foldl (fun p c => if c = "." then p else if c = ".." then p.dropLast else p ++ [c]) []

/-- The name of a file's sidecar. -/
def sidecar (fileName : String) : String := fileName ++ ".jvmlock"

/-- A runtime that was made and is not closed: its file, the sidecar it has
locked, and its key and count in the registry when it is there. -/
structure Live (Id : Type) where
  file : Id
  sidecar : Option Id
  key : Option (List String) := none
  refs : Nat := 0

variable {Id : Type}

/-- `entry.refs++`. -/
def retain (live : List (Live Id)) (path : List String) : List (Live Id) :=
  live.filterMap fun r => if r.key = some path then some { r with refs := r.refs + 1 } else some r

/-- `releaseFile`. -/
def releaseFile (live : List (Live Id)) (path : List String) : List (Live Id) :=
  live.filterMap fun r =>
    if r.key = some path then (if r.refs ≤ 1 then none else some { r with refs := r.refs - 1 }) else some r

section
variable [DecidableEq Id]

/-- `openRuntime`, and whether it returned. The JVM refuses a lock on a file
that one of its locks is on, whatever the path. -/
def openRuntime (fs : FileSystem Id) (live : List (Live Id)) (dir : List String) (fileName : String)
    (creation : Creation) (key : Option (List String)) : List (Live Id) × Bool :=
  match fs.underlying dir (sidecar fileName) with
  | none => (live, false)
  | some sidecar =>
    if live.any fun r => r.sidecar = some sidecar then (live, false)
    else match creation, fs.underlying dir fileName with
      | .returns, some file => ({ file, sidecar := some sidecar, key } :: live, true)
      -- The lock is given back and the runtime is not.
      | .throwsBehind, some file => ({ file, sidecar := none } :: live, false)
      | _, _ => (live, false)

/-- `WorkerDbRuntimes.openFile`, of a normalized path. -/
def openEntry (fs : FileSystem Id) (live : List (Live Id)) (path : List String) (creation : Creation)
    (spawned : Bool) : List (Live Id) :=
  match path.getLast? with
  | none => live
  | some fileName =>
    let (live, there) :=
      if live.any fun r => r.key = some path then (live, true)
      else openRuntime fs live path.dropLast fileName creation (some path)
    if there then (if spawned then retain live path else releaseFile (retain live path) path) else live

/-- The opens and closes of one JVM. -/
inductive Label where
  | openFile (path : List String) (creation : Creation) (spawned : Bool)
  | dataSource (dir : List String) (fileName : String) (creation : Creation)
  /-- A spawn that throws leaves the runtime and its lock behind, so it changes nothing here. -/
  | wal (dir : List String) (fileName : String) (creation : Creation)
  /-- A port on this key is released. -/
  | release (path : List String)
  /-- The data source or the `SqliteWal` that has the `k`-th runtime is closed. Only closes that succeed are
  steps: one that throws may leave the runtime and its lock as they are. -/
  | close (k : Nat)

/-- One of them, on the runtimes that are live; none where there is nothing to close. -/
def step (fs : FileSystem Id) (live : List (Live Id)) : Label → Option (List (Live Id))
  | .openFile path creation spawned => some (openEntry fs live (normalize path) creation spawned)
  | .dataSource dir fileName creation | .wal dir fileName creation =>
    some (openRuntime fs live dir fileName creation none).1
  | .release path => some (releaseFile live path)
  | .close k => match live[k]? with
    | some { sidecar := some _, key := none, .. } => some (live.eraseIdx k)
    | _ => none

end

/-- No two runtimes for one file. -/
def OneEach (live : List (Live Id)) : Prop := live.Pairwise fun r r' => r.file ≠ r'.file

/-- Neither the file's name nor its sidecar's is a link, and the file has this one name. -/
def Plain (fs : FileSystem Id) (dir : List String) (fileName : String) : Prop :=
  ∀ i, fs.dir dir = some i →
    fs.link i fileName = none ∧ fs.link i (sidecar fileName) = none ∧ fs.Sole i fileName

/-- Only plain paths are opened, and no `openRuntime` throws behind its runtime's constructor. -/
def Ordinary (fs : FileSystem Id) : Label → Prop
  | .openFile path creation _ =>
    creation ≠ .throwsBehind ∧
      ∀ fileName, (normalize path).getLast? = some fileName → Plain fs (normalize path).dropLast fileName
  | .dataSource dir fileName creation | .wal dir fileName creation =>
    creation ≠ .throwsBehind ∧ Plain fs dir fileName
  | .release _ | .close _ => True

/-! ## The invariant -/

/-- The sidecar a runtime has locked lies beside its file. -/
def Beside (fs : FileSystem Id) (r : Live Id) : Prop :=
  ∃ i name, r.file = fs.file i name ∧ r.sidecar = some (fs.file i (sidecar name)) ∧ fs.Sole i name

/-- Every runtime has the sidecar beside its file, and no two the same file. -/
def Inv (fs : FileSystem Id) (live : List (Live Id)) : Prop := (∀ r ∈ live, Beside fs r) ∧ OneEach live

variable {fs : FileSystem Id} {live : List (Live Id)}

/-- Under a name that is no link is the file of that name. -/
theorem underlying_of_plain {dir : List String} {name : String} {i : Nat} (hdir : fs.dir dir = some i)
    (hlink : fs.link i name = none) : fs.underlying dir name = some (fs.file i name) := by
  simp [FileSystem.underlying, FileSystem.locate, hdir, hlink]

theorem underlying_none {dir : List String} {name : String} (hdir : fs.dir dir = none) :
    fs.underlying dir name = none := by
  simp [FileSystem.underlying, FileSystem.locate, hdir]

/-- Counting, and dropping runtimes. -/
theorem Inv.filterMap (hi : Inv fs live) {f : Live Id → Option (Live Id)}
    (hf : ∀ r r', f r = some r' → r'.file = r.file ∧ r'.sidecar = r.sidecar) : Inv fs (live.filterMap f) := by
  refine ⟨fun r hr => ?_, List.pairwise_filterMap.mpr (hi.2.imp fun {a b} hab r hr r' hr' => ?_)⟩
  · obtain ⟨r₀, hr₀, h⟩ := List.mem_filterMap.mp hr
    obtain ⟨i, name, hfile, hside, hsole⟩ := hi.1 r₀ hr₀
    obtain ⟨h1, h2⟩ := hf r₀ r h
    exact ⟨i, name, h1.trans hfile, h2.trans hside, hsole⟩
  · rw [(hf a r hr).1, (hf b r' hr').1]
    exact hab

theorem Inv.retain (hi : Inv fs live) (path : List String) : Inv fs (retain live path) := by
  refine hi.filterMap fun r r' h => ?_
  split at h <;> cases h <;> exact ⟨rfl, rfl⟩

theorem Inv.releaseFile (hi : Inv fs live) (path : List String) : Inv fs (releaseFile live path) := by
  refine hi.filterMap fun r r' h => ?_
  split at h
  · split at h <;> cases h
    exact ⟨rfl, rfl⟩
  · cases h
    exact ⟨rfl, rfl⟩

variable [DecidableEq Id]

/-- A new runtime's file is open nowhere else: its sidecar was free. -/
theorem Inv.cons (hi : Inv fs live) {i : Nat} {name : String} {key : Option (List String)} (hsole : fs.Sole i name)
    (hfree : ¬ (live.any fun r => r.sidecar = some (fs.file i (sidecar name))) = true) :
    Inv fs ({ file := fs.file i name, sidecar := some (fs.file i (sidecar name)), key } :: live) := by
  refine ⟨fun r hr => ?_, List.pairwise_cons.mpr ⟨fun r hr hsame => ?_, hi.2⟩⟩
  · rcases List.mem_cons.mp hr with rfl | hr
    · exact ⟨i, name, rfl, rfl, hsole⟩
    · exact hi.1 r hr
  · obtain ⟨j, n, hfile, hside, -⟩ := hi.1 r hr
    obtain ⟨rfl, rfl⟩ := hsole j n (hfile.symm.trans hsame.symm)
    exact hfree (List.any_eq_true.mpr ⟨r, hr, decide_eq_true hside⟩)

theorem Inv.openRuntime (hi : Inv fs live) {dir : List String} {fileName : String} {creation : Creation}
    (hplain : Plain fs dir fileName) (hcreation : creation ≠ .throwsBehind) (key : Option (List String)) :
    Inv fs (openRuntime fs live dir fileName creation key).1 := by
  unfold OneRuntime.openRuntime
  cases hdir : fs.dir dir with
  | none => rw [underlying_none hdir]; exact hi
  | some i =>
    obtain ⟨hlink, hside, hsole⟩ := hplain i hdir
    rw [underlying_of_plain hdir hside, underlying_of_plain hdir hlink]
    dsimp only
    split
    · exact hi
    · next hfree =>
      cases creation with
      | returns => exact hi.cons hsole hfree
      | throwsBefore => exact hi
      | throwsBehind => exact absurd rfl hcreation

theorem Inv.openEntry (hi : Inv fs live) {path : List String} {creation : Creation}
    (hplain : ∀ fileName, path.getLast? = some fileName → Plain fs path.dropLast fileName)
    (hcreation : creation ≠ .throwsBehind) (spawned : Bool) : Inv fs (openEntry fs live path creation spawned) := by
  unfold OneRuntime.openEntry
  split
  · exact hi
  · next fileName hlast =>
    -- What there is once the entry is looked up or made.
    generalize hfound : (if (live.any fun r => r.key = some path) = true then (live, true)
      else OneRuntime.openRuntime fs live path.dropLast fileName creation (some path)) = found
    have hfi : Inv fs found.1 := by
      rw [← hfound]
      split
      · exact hi
      · exact hi.openRuntime (hplain fileName hlast) hcreation (some path)
    obtain ⟨live', there⟩ := found
    cases there with
    | false => exact hfi
    | true =>
      cases spawned with
      | true => exact hfi.retain path
      | false => exact (hfi.retain path).releaseFile path

theorem Inv.step (hi : Inv fs live) {l : Label} {live' : List (Live Id)} (ho : Ordinary fs l)
    (h : step fs live l = some live') : Inv fs live' := by
  cases l with
  | openFile path creation spawned =>
    cases h
    exact hi.openEntry ho.2 ho.1 spawned
  | dataSource dir fileName creation | wal dir fileName creation =>
    cases h
    exact hi.openRuntime ho.2 ho.1 none
  | release path =>
    cases h
    exact hi.releaseFile path
  | close k =>
    simp only [OneRuntime.step] at h
    split at h <;> cases h
    have hsub := List.eraseIdx_sublist live k
    exact ⟨fun r hr => hi.1 r (hsub.subset hr), hi.2.sublist hsub⟩

/-! ## Runs -/

/-- **At most one runtime for each file**, when the names it is opened by are plain. -/
theorem one_runtime (fs : FileSystem Id) (labels : List Label)
    (h : EveryStep (step fs) (fun _ => Ordinary fs) [] labels) : EveryState (step fs) OneEach [] labels :=
  everyState_of_invariant (fun _ _ _ hi ho hs => Inv.step hi ho hs) (fun _ hi => hi.2) ⟨nofun, .nil⟩ h

/-- `/l` is a link to the directory `/d`; in it `y.db` is a link to `x.db` when `linked`. -/
def twoNames (linked : Bool) : FileSystem (Nat × String) where
  dir path := if path = ["d"] ∨ path = ["l"] then some 1 else none
  link i name := if linked ∧ i = 1 ∧ name = "y.db" then some (["d"], "x.db") else none
  file i name := (i, name)

theorem plain_of_unlinked (dir : List String) (fileName : String) : Plain (twoNames false) dir fileName := by
  intro i _
  refine ⟨rfl, rfl, fun j n h => ?_⟩
  exact Prod.mk.inj h

/-- Through the linked directory: a port, a second port that joins it, a data
source that fails, and, once both ports are released, a `SqliteWal`. -/
theorem one_runtime_linked_directory :
    EveryState (step (twoNames false)) OneEach []
      [.openFile ["d", "x.db"] .returns true, .dataSource ["l"] "x.db" .returns,
        .openFile ["d", "..", "d", "x.db"] .returns true, .release ["d", "x.db"], .release ["d", "x.db"],
        .wal ["l"] "x.db" .returns] := by
  have hfile : ∀ path spawned, Ordinary (twoNames false) (.openFile path .returns spawned) :=
    fun path _ => ⟨nofun, fun fileName _ => plain_of_unlinked _ fileName⟩
  have hother : ∀ dir fileName, Ordinary (twoNames false) (.dataSource dir fileName .returns) :=
    fun dir fileName => ⟨nofun, plain_of_unlinked dir fileName⟩
  refine one_runtime (twoNames false) _ ?_
  exact ⟨hfile _ _, fun _ _ => ⟨hother _ _, fun _ _ => ⟨hfile _ _, fun _ _ => ⟨trivial, fun _ _ =>
    ⟨trivial, fun _ _ => ⟨hother _ _, fun _ _ => trivial⟩⟩⟩⟩⟩⟩

/-- Through the link `y.db`: two data sources on `x.db`, each with a sidecar of its own. -/
theorem two_runtimes :
    ¬ ∀ (fs : FileSystem (Nat × String)) (labels : List Label), EveryState (step fs) OneEach [] labels := by
  intro h
  have hend := (h (twoNames true) [.dataSource ["d"] "x.db" .returns, .dataSource ["d"] "y.db" .returns]).last rfl
  have hne := (List.pairwise_cons.mp hend).1 _ List.mem_cons_self
  exact hne rfl

end OneRuntime

end Sqlol

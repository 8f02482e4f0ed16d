/-
The in-memory lock table behind the custom VFS (`JvmVfsLocks`): file locks by
level, and the eight wal-index slots of `xShmLock`.

Each method takes the lock of its file's entry for its whole body, so a call
is one step here, and the `ReentrantLock` of an entry is not part of the
state. A connection is the address of its file handle (`CONN`), an `Int` as
in the source.
-/
import Sqlol.Int32
import Sqlol.Table
import Mathlib.Data.Finset.Basic
import Mathlib.Logic.Function.Basic

namespace Sqlol

/-! ## Constants -/

/-- `SQLITE_OK`. -/
def OK : Int := 0
/-- `SQLITE_BUSY`. -/
def BUSY : Int := 5

/-- The file lock levels, in order. -/
def NONE : Int := 0
def SHARED : Int := 1
def RESERVED : Int := 2
def PENDING : Int := 3
def EXCLUSIVE : Int := 4

/-- The flags of `xShmLock`. -/
def SHM_UNLOCK : BitVec 32 := 1
def SHM_LOCK : BitVec 32 := 2
def SHM_SHARED : BitVec 32 := 4
def SHM_EXCLUSIVE : BitVec 32 := 8
/-- The number of slots of a file, `SQLITE_SHM_NLOCK`. -/
abbrev SHM_NLOCK : Nat := 8

/-! ## The table -/

/-- `levels` maps a connection to its current level. -/
structure FileState where
  levels : Table Int Int := ∅

/-- Per slot, the connections that hold it shared and the one that holds it
exclusively (`-1` for none). -/
structure ShmState where
  shared : Fin SHM_NLOCK → Finset Int := fun _ => ∅
  excl : Fin SHM_NLOCK → Int := fun _ => -1

/-- The tables of the file locks and of the shared-memory locks, by file name. -/
structure JvmVfsLocks where
  files : Table String FileState := ∅
  shms : Table String ShmState := ∅

namespace JvmVfsLocks

/-- `fileState(name)`: the entry, created empty on first use. -/
def fileState (t : JvmVfsLocks) (name : String) : JvmVfsLocks × FileState :=
  let (files, st) := t.files.getOrPut name {}
  ({ t with files }, st)

/-- `shmState(name)`: the entry, made when it is not there. -/
def shmState (t : JvmVfsLocks) (name : String) : JvmVfsLocks × ShmState :=
  let (shms, st) := t.shms.getOrPut name {}
  ({ t with shms }, st)

/-- The levels of a file. -/
def setLevels (t : JvmVfsLocks) (name : String) (levels : Table Int Int) : JvmVfsLocks :=
  { t with files := t.files.insert name { levels } }

/-- The slots of a file. -/
def setShm (t : JvmVfsLocks) (name : String) (st : ShmState) : JvmVfsLocks :=
  { t with shms := t.shms.insert name st }

/-! ## File locks -/

/-- Some other connection is at `level` or above. -/
def othersAtLeast (st : FileState) (conn level : Int) : Bool :=
  st.levels.any fun c l => c ≠ conn && decide (l ≥ level)

/-- The grant rule: what blocks a request for `target`. -/
def blocked (st : FileState) (conn target : Int) : Bool :=
  if target = SHARED then othersAtLeast st conn PENDING
  else if target = RESERVED then othersAtLeast st conn RESERVED
  else if target = PENDING then othersAtLeast st conn PENDING
  else if target = EXCLUSIVE then othersAtLeast st conn SHARED
  else false

/-- `xLock`: an upgrade, unless another connection is in the way. -/
def lock (t : JvmVfsLocks) (conn : Int) (name : String) (target : Int) : JvmVfsLocks × Int :=
  let (t, st) := t.fileState name
  let cur := (st.levels.lookup conn).getD NONE
  if cur ≥ target then (t, OK)
  else if blocked st conn target then (t, BUSY)
  else (t.setLevels name (st.levels.insert conn target), OK)

/-- No check here: whatever `target` is, it becomes the level. -/
def unlock (t : JvmVfsLocks) (conn : Int) (name : String) (target : Int) : JvmVfsLocks × Int :=
  let (t, st) := t.fileState name
  if target ≤ NONE then (t.setLevels name (st.levels.erase conn), OK)
  else (t.setLevels name (st.levels.insert conn target), OK)

/-- `xCheckReservedLock`. -/
def checkReserved (t : JvmVfsLocks) (conn : Int) (name : String) : JvmVfsLocks × Int :=
  let (t, st) := t.fileState name
  (t, if othersAtLeast st conn RESERVED then 1 else 0)

/-- The level of a connection on a file, `NONE` when the table has no entry. -/
def level (t : JvmVfsLocks) (name : String) (conn : Int) : Int :=
  ((t.files.lookup name).bind (·.levels.lookup conn)).getD NONE

/-! ## Slot locks -/

/-- Array indexing: outside the array the access throws. -/
def slot? (s : Int) : Option (Fin SHM_NLOCK) :=
  if h : 0 ≤ s ∧ s < SHM_NLOCK then some ⟨s.toNat, by omega⟩ else none

/-- `offset until (offset + n)`. -/
def slots (offset n : Int) : List Int :=
  (List.range (i32 (offset + n) - offset).toNat).map fun (k : Nat) => offset + (k : Int)

/-- `for (s in slots) body(s)`; the flag is false when an access threw, with
the effect of the iterations before it kept. -/
def forSlots (body : Fin SHM_NLOCK → ShmState → ShmState) : List Int → ShmState → ShmState × Bool
  | [], st => (st, true)
  | s :: rest, st =>
    match slot? s with
    | none => (st, false)
    | some i => forSlots body rest (body i st)

/-- `for (s in slots) if (busy(s)) return BUSY`, as whether it returned;
`none` when an access threw first. -/
def anySlot (busy : Fin SHM_NLOCK → Bool) : List Int → Option Bool
  | [] => some false
  | s :: rest =>
    match slot? s with
    | none => none
    | some i => if busy i then some true else anySlot busy rest

/-- Take one connection's holds off a slot. -/
def releaseSlot (conn : Int) (i : Fin SHM_NLOCK) (st : ShmState) : ShmState :=
  { shared := Function.update st.shared i ((st.shared i).erase conn)
    excl := if st.excl i = conn then Function.update st.excl i (-1) else st.excl }

/-- One slot of an exclusive request. -/
def exclusiveSlot (conn : Int) (i : Fin SHM_NLOCK) (st : ShmState) : ShmState :=
  { shared := Function.update st.shared i ((st.shared i).erase conn)
    excl := Function.update st.excl i conn }

/-- One slot of a shared request. -/
def sharedSlot (conn : Int) (i : Fin SHM_NLOCK) (st : ShmState) : ShmState :=
  { st with shared := Function.update st.shared i (insert conn (st.shared i)) }

/-- Held exclusively by another connection. -/
def exclByOther (st : ShmState) (conn : Int) (i : Fin SHM_NLOCK) : Bool :=
  st.excl i ≠ -1 && st.excl i ≠ conn

/-- Held in any mode by another connection. -/
def heldByOther (st : ShmState) (conn : Int) (i : Fin SHM_NLOCK) : Bool :=
  exclByOther st conn i || decide (∃ c ∈ st.shared i, c ≠ conn)

/-- Run a loop of one of the branches and answer `OK`; no answer when it threw. -/
def finish (t : JvmVfsLocks) (name : String) (r : ShmState × Bool) : JvmVfsLocks × Option Int :=
  (t.setShm name r.1, if r.2 then some OK else none)

/-- `xShmLock`: all slots of the range, or none. -/
def shmLock (t : JvmVfsLocks) (conn : Int) (name : String) (offset n : Int) (flags : BitVec 32) :
    JvmVfsLocks × Option Int :=
  let (t, st) := t.shmState name
  let slots := slots offset n
  if flags &&& SHM_UNLOCK ≠ 0 then finish t name (forSlots (releaseSlot conn) slots st)
  else if flags &&& SHM_EXCLUSIVE ≠ 0 then
    match anySlot (heldByOther st conn) slots with
    | none => (t, none)
    | some true => (t, some BUSY)
    | some false => finish t name (forSlots (exclusiveSlot conn) slots st)
  else
    match anySlot (exclByOther st conn) slots with
    | none => (t, none)
    | some true => (t, some BUSY)
    | some false => finish t name (forSlots (sharedSlot conn) slots st)

/-- Every hold of the connection on the file's slots goes. -/
def shmUnmap (t : JvmVfsLocks) (conn : Int) (name : String) : JvmVfsLocks × Option Int :=
  let (t, st) := t.shmState name
  finish t name (forSlots (releaseSlot conn) (slots 0 SHM_NLOCK) st)

end JvmVfsLocks

end Sqlol

/-
`DbOwnerLock.acquire` and `close` on one database path, one system call a
step: any number of calls, spread over any number of processes.

A file is an inode (numbered as they are created, never reused), the sidecar's
path names at most one. `LockKind` chooses what the OS lock is. With
`process` it is a POSIX record lock: it belongs to the process, and closing
any descriptor of the inode drops it. With `handle` it belongs to the
descriptor it was taken through. Either way the JVM keeps its own table of
`FileLock`s and answers an overlapping `tryLock` from that table alone.

Every call into the file system may throw (`ok = false`); what the source
does then is part of the steps. A process may die at any point.
-/
import Mathlib.Data.List.Basic
import Mathlib.Logic.Function.Basic

namespace Sqlol

namespace DbOwnerLock

/-- A lock of the process, dropped with any of its handles on the file, or one of the handle. -/
inductive LockKind where
  | process
  | handle
  deriving DecidableEq

/-- Where a call is, from the start of its `acquire` to the end of its
`close`. `left` is the number of attempts behind this one, `i` the inode of
`ch`, `j` the inode of `c2`. -/
inductive Pc where
  | idle
  | opening (left : Nat)
  | opened (left i : Nat)
  /-- `tryLock` threw or returned null; `ch` is still to be closed. -/
  | refused (i : Nat)
  | locked (left i : Nat)
  | written (left i : Nat) (token : Int)
  | forced (left i : Nat) (token : Int)
  | reopened (left i : Nat) (token : Int) (j : Nat)
  | readBack (left i : Nat) (token : Int) (j : Nat) (seen : Option Int)
  | checked (left i : Nat) (token : Int) (seen : Option Int)
  | releasing (left i : Nat)
  | reclosing (left i : Nat)
  /-- `acquire` has returned, `close` has not begun. -/
  | owner (i : Nat)
  | deleted (i : Nat)
  | released (i : Nat)
  | closed
  | failed
  /-- An exception left `acquire` with `ch` open. -/
  | abandoned (i : Nat)
  | dead
  deriving DecidableEq

/-- The file system, the locks and the calls. `content` is the token a file
holds, none when it is empty. `drawn` is a note of the tokens drawn so far
and who drew them (none for an earlier run); no step reads it. -/
structure Sys where
  path : Option Nat
  next : Nat
  content : Nat → Option Int
  /-- The JVMs' tables: an unreleased `FileLock` of a call on an inode. -/
  fileLocks : List (Nat × Nat) := []
  /-- The locks the OS enforces. -/
  osLocks : List (Nat × Nat) := []
  pc : Nat → Pc := fun _ => .idle
  drawn : List (Option Nat × Int) := []

/-- No sidecar, or one that a process which died has left, empty or with its token. -/
def start : Option (Option Int) → Sys
  | none => { path := none, next := 0, content := fun _ => none }
  | some none => { path := some 0, next := 1, content := fun _ => none }
  | some (some token) =>
    { path := some 0, next := 1, content := fun i => if i = 0 then some token else none
      drawn := [(none, token)] }

/-- The steps of the calls of `acquire`, and of the holders behind them. -/
inductive Label where
  | call (c : Nat)
  | open (c : Nat) (ok : Bool)
  | tryLock (c : Nat) (ok : Bool)
  | closeRefused (c : Nat) (ok : Bool)
  | write (c : Nat) (token : Int) (ok : Bool)
  | force (c : Nat) (ok : Bool)
  | reopen (c : Nat) (ok : Bool)
  | read (c : Nat) (ok : Bool)
  | closeRead (c : Nat) (ok : Bool)
  | decide (c : Nat)
  | release (c : Nat) (ok : Bool)
  | closeChannel (c : Nat) (ok : Bool)
  | giveUp (c : Nat)
  | delete (c : Nat) (ok : Bool)
  | unlock (c : Nat) (ok : Bool)
  | closeOwned (c : Nat) (ok : Bool)
  /-- A second `close` of the same lock. -/
  | closeAgain (c : Nat) (ok : Bool)
  /-- The garbage collector closes an abandoned channel. -/
  | reap (c : Nat)
  | crash (p : Nat)

section
-- The process each call runs in.
variable (kind : LockKind) (proc : Nat → Nat)

namespace Sys

/-- The call goes on at `p`. -/
def goto (s : Sys) (c : Nat) (p : Pc) : Sys := { s with pc := Function.update s.pc c p }

/-- The OS locks when call `c` closes a descriptor of inode `i`, or unlocks
it: the process's locks on the inode go, or only the descriptor's own. -/
def osDrop (s : Sys) (c i : Nat) (own : Bool) : List (Nat × Nat) :=
  match kind with
  | .process => s.osLocks.filter fun l => ¬ (l.1 = i ∧ proc l.2 = proc c)
  | .handle => if own then s.osLocks.filter (· ≠ (i, c)) else s.osLocks

/-- Close a descriptor that carries no `FileLock`. -/
def closeOther (s : Sys) (c i : Nat) : Sys := { s with osLocks := s.osDrop kind proc c i false }

/-- Release the `FileLock` on `i`, or close its channel. -/
def releaseOwn (s : Sys) (c i : Nat) : Sys :=
  { s with osLocks := s.osDrop kind proc c i true, fileLocks := s.fileLocks.filter (· ≠ (i, c)) }

/-- The JVM's answer: some `FileLock` of the process is on the inode. -/
def overlaps (s : Sys) (c i : Nat) : Bool := s.fileLocks.any fun l => l.1 = i ∧ proc l.2 = proc c

/-- The OS's answer. -/
def conflicts (s : Sys) (c i : Nat) : Bool :=
  match kind with
  | .process => s.osLocks.any fun l => l.1 = i ∧ proc l.2 ≠ proc c
  | .handle => s.osLocks.any fun l => l.1 = i

/-- The call gets the lock on the inode. -/
def grants (s : Sys) (c i : Nat) : Bool := !s.overlaps proc c i && !s.conflicts kind proc c i

/-- `CREATE`: the inode behind the path, a new empty one when there is none. -/
def create (s : Sys) : Sys × Nat :=
  match s.path with
  | some i => (s, i)
  | none =>
    ({ s with path := some s.next, next := s.next + 1
              content := Function.update s.content s.next none }, s.next)

end Sys

open Sys

/-- One step of `acquire` or of a holder; none where it is not the next one. -/
def step (s : Sys) : Label → Option Sys
  | .call c => match s.pc c with
    | .idle => some (s.goto c (.opening 16))
    | _ => none
  | .open c ok => match s.pc c with
    | .opening (left + 1) =>
      if ok then some (s.create.1.goto c (.opened left s.create.2)) else some (s.goto c .failed)
    | _ => none
  | .tryLock c ok => match s.pc c with
    | .opened left i =>
      if !ok then some (s.goto c (.abandoned i))
      else if s.grants kind proc c i then
        some ({ s with
          fileLocks := (i, c) :: s.fileLocks
          osLocks := (i, c) :: s.osLocks }.goto c (.locked left i))
      else some (s.goto c (.refused i))
    | _ => none
  | .closeRefused c ok => match s.pc c with
    | .refused i =>
      if ok then some ((s.closeOther kind proc c i).goto c .failed) else some (s.goto c (.abandoned i))
    | _ => none
  | .write c token ok => match s.pc c with
    | .locked left i =>
      if ok then
        some ({ s with content := Function.update s.content i (some token)
                       drawn := (some c, token) :: s.drawn }.goto c (.written left i token))
      else some (s.goto c (.abandoned i))
    | _ => none
  | .force c ok => match s.pc c with
    | .written left i token =>
      if ok then some (s.goto c (.forced left i token)) else some (s.goto c (.abandoned i))
    | _ => none
  | .reopen c ok => match s.pc c with
    | .forced left i token =>
      match s.path with
      | some j =>
        if ok then some (s.goto c (.reopened left i token j))
        else some (s.goto c (.checked left i token none))
      | none => some (s.goto c (.checked left i token none))
    | _ => none
  | .read c ok => match s.pc c with
    | .reopened left i token j =>
      -- An empty file leaves the zeroes of `allocate(8)` in the buffer.
      some (s.goto c (.readBack left i token j (if ok then some ((s.content j).getD 0) else none)))
    | _ => none
  | .closeRead c ok => match s.pc c with
    | .readBack left i token j seen =>
      some ((s.closeOther kind proc c j).goto c (.checked left i token (if ok then seen else none)))
    | _ => none
  | .decide c => match s.pc c with
    | .checked left i token seen =>
      some (s.goto c (if seen = some token then .owner i else .releasing left i))
    | _ => none
  | .release c ok => match s.pc c with
    | .releasing left i =>
      some ((if ok then s.releaseOwn kind proc c i else s).goto c (.reclosing left i))
    | _ => none
  | .closeChannel c ok => match s.pc c with
    | .reclosing left i => some ((if ok then s.releaseOwn kind proc c i else s).goto c (.opening left))
    | _ => none
  | .giveUp c => match s.pc c with
    | .opening 0 => some (s.goto c .failed)
    | _ => none
  | .delete c ok => match s.pc c with
    | .owner i => some ((if ok then { s with path := none } else s).goto c (.deleted i))
    | _ => none
  | .unlock c ok => match s.pc c with
    | .deleted i => some ((if ok then s.releaseOwn kind proc c i else s).goto c (.released i))
    | _ => none
  | .closeOwned c ok => match s.pc c with
    | .released i => some ((if ok then s.releaseOwn kind proc c i else s).goto c .closed)
    | _ => none
  | .closeAgain c ok => match s.pc c with
    -- Its release and its channel close are those of the first; it deletes once more.
    | .deleted _ | .released _ | .closed => some (if ok then { s with path := none } else s)
    | _ => none
  | .reap c => match s.pc c with
    | .abandoned i => some ((s.releaseOwn kind proc c i).goto c .failed)
    | _ => none
  | .crash p => some { s with
      pc := fun c => if proc c = p then .dead else s.pc c
      fileLocks := s.fileLocks.filter fun l => proc l.2 ≠ p
      osLocks := s.osLocks.filter fun l => proc l.2 ≠ p }

end

end DbOwnerLock

end Sqlol

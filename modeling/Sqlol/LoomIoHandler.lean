/-
`LoomIoHandler`: registrations, the operations submitted to them from any
thread, the `run` calls that pass these to their handles, and the teardown.

A `submit` is two queue operations, the registration's own queue first and then
the queue of runnable registrations; a `cancel` from a foreign thread is a flag
and a task handed to the executor. A call between two of its steps stands in one
of the lists `checked`, `offered` and `flagged`; which thread it runs on makes no
difference. The executor's own thread is the stack of its `run` calls, since a
handle may call `run` again, and the phase of `prepareToDestroy`.

`wakeup`, the parking at the end of an idle `run` and the reported times move
nothing that is modelled here.
-/
import Mathlib.Data.List.Count
import Mathlib.Logic.Function.Basic
import Mathlib.Tactic.Common

namespace Sqlol

namespace LoomIoHandler

/-- What a handle is told at the end. -/
inductive Event where
  | unregistered
  | close
  deriving DecidableEq

/-- `registered` is membership in `registrations`. `accepted` notes what was put
into `submittedOps`, `passed` what the handle was given and `events` what it was
told, each in order; no step reads them. -/
structure LoomIoRegistration (Op : Type) where
  canceled : Bool := false
  registered : Bool := true
  submittedOps : List Op := []
  accepted : List Op := []
  passed : List Op := []
  events : List Event := []

/-- Where a `run` call is. `count` is what `runSubmittedOps` has handled so far. -/
inductive Pc (Op : Type) where
  | polling
  | draining (r count : Nat)
  | handling (r count : Nat) (op : Op)
  deriving DecidableEq

/-- A `run` call: what it has handled so far, and where it is. -/
structure Frame (Op : Type) where
  handled : Nat := 0
  pc : Pc Op := .polling
  deriving DecidableEq

/-- Where `prepareToDestroy` is. -/
inductive Phase where
  | running
  /-- In the `forEach`, behind these registrations. -/
  | destroying (visited : List Nat)
  | destroyed
  /-- A handle's `unregistered` threw out of it. -/
  | threw
  deriving DecidableEq

/-- Registrations are numbered as they are made. -/
structure Handler (Op : Type) where
  next : Nat := 0
  regs : Nat → LoomIoRegistration Op := fun _ => {}
  runnableRegistrations : List Nat := []
  sequence : Nat := 0
  /-- Submits that found the registration valid. -/
  checked : List (Nat × Op) := []
  /-- Submits between their two `offer`s. -/
  offered : List Nat := []
  /-- Cancels from other threads that have set the flag. -/
  flagged : List Nat := []
  /-- The executor's queue. -/
  tasks : List Nat := []
  /-- The `run` calls under way, the innermost first. -/
  stack : List (Frame Op) := []
  phase : Phase := .running

/-- The steps of the loop's thread and of those that submit, cancel and close. -/
inductive Label (Op : Type) where
  | register
  /-- `submit`, as far as `isValid`. -/
  | submit (r : Nat) (op : Op)
  | offer (r : Nat) (op : Op)
  | enqueue (r : Nat)
  /-- `cancel` on another thread, as far as the flag. -/
  | cancel (r : Nat)
  | execute (r : Nat)
  /-- `cancel` on the executor's thread. -/
  | cancelHere (r : Nat)
  /-- The executor runs the next task of its queue. -/
  | task
  | run
  | poll
  /-- One turn of `runSubmittedOps`; `deadline` is whether the deadline is past when it ends. -/
  | drain (deadline : Bool)
  | handled
  /-- `handle` throws, out of `run`. -/
  | handleThrows
  | prepareToDestroy
  /-- `forEach` comes to a registration; `throws` is whether its handle's `unregistered` does. -/
  | visit (r : Nat) (throws : Bool)
  | clear

variable {Op : Type}

namespace LoomIoRegistration

/-- The task of a `cancel`: `close` comes in the `finally` block. -/
def remove (reg : LoomIoRegistration Op) : LoomIoRegistration Op :=
  if reg.registered then
    { reg with registered := false, events := reg.events ++ [.unregistered, .close] }
  else reg

/-- `cancel` when the task is run at once. -/
def cancelNow (reg : LoomIoRegistration Op) : LoomIoRegistration Op :=
  if reg.canceled then reg else { reg with canceled := true }.remove

end LoomIoRegistration

namespace Handler

/-- Another state of a registration. -/
def setReg (s : Handler Op) (r : Nat) (reg : LoomIoRegistration Op) : Handler Op :=
  { s with regs := Function.update s.regs r reg }

/-- The executor's thread is idle, or in a handle's hands. -/
def free (s : Handler Op) : Bool :=
  match s.phase, s.stack with
  | .destroying _, _ => false
  | _, [] => true
  | _, f :: _ => match f.pc with
    | .handling .. => true
    | _ => false

/-- The executor's thread is in a handle's hands when it is in the `forEach`, too. -/
def calledBack (s : Handler Op) : Bool :=
  match s.phase with
  | .destroying _ => true
  | _ => s.free

/-- The rest of the loop body of `run` behind `runSubmittedOps`. -/
def endDrain (s : Handler Op) (f : Frame Op) (rest : List (Frame Op)) (count : Nat) (deadline : Bool) : Handler Op :=
  { s with stack := if deadline then rest else ⟨f.handled + count, .polling⟩ :: rest }

end Handler

variable [DecidableEq Op]

/-- One step; none where it is not the next one. -/
def step (s : Handler Op) : Label Op → Option (Handler Op)
  | .register =>
    if s.free ∧ s.phase = .running then some { s.setReg s.next {} with next := s.next + 1 } else none
  | .submit r op =>
    if r < s.next then
      -- A registration that is no longer valid answers -1.
      some (if (s.regs r).canceled then s else { s with checked := (r, op) :: s.checked })
    else none
  | .offer r op =>
    if (r, op) ∈ s.checked then
      let reg := s.regs r
      some { s.setReg r { reg with submittedOps := reg.submittedOps ++ [op], accepted := reg.accepted ++ [op] } with
        checked := s.checked.erase (r, op), offered := r :: s.offered }
    else none
  | .enqueue r =>
    if r ∈ s.offered then
      some { s with
        offered := s.offered.erase r
        runnableRegistrations := s.runnableRegistrations ++ [r]
        sequence := s.sequence + 1 }
    else none
  | .cancel r =>
    if r < s.next then
      some (if (s.regs r).canceled then s
        else { s.setReg r { s.regs r with canceled := true } with flagged := r :: s.flagged })
    else none
  | .execute r =>
    if r ∈ s.flagged then some { s with flagged := s.flagged.erase r, tasks := s.tasks ++ [r] } else none
  | .cancelHere r =>
    if s.calledBack ∧ r < s.next then some (s.setReg r (s.regs r).cancelNow) else none
  | .task => match s.tasks with
    | r :: rest => if s.free then some { s.setReg r (s.regs r).remove with tasks := rest } else none
    | [] => none
  | .run => if s.free then some { s with stack := {} :: s.stack } else none
  | .poll => match s.stack with
    | ⟨handled, .polling⟩ :: rest => match s.runnableRegistrations with
      | [] => some { s with stack := rest }
      | r :: queue =>
        some { s with
          runnableRegistrations := queue
          stack := ⟨handled, if (s.regs r).canceled then .polling else .draining r 0⟩ :: rest }
    | _ => none
  | .drain deadline => match s.stack with
    | ⟨handled, .draining r count⟩ :: rest => match (s.regs r).submittedOps with
      | [] => some (s.endDrain ⟨handled, .draining r count⟩ rest count deadline)
      | op :: ops =>
        let reg := { s.regs r with submittedOps := ops }
        if reg.canceled then some ((s.setReg r reg).endDrain ⟨handled, .draining r count⟩ rest count deadline)
        else
          some { s.setReg r { reg with passed := reg.passed ++ [op] } with
            stack := ⟨handled, .handling r count op⟩ :: rest }
    | _ => none
  | .handled => match s.stack with
    | ⟨handled, .handling r count _⟩ :: rest =>
      if s.free then some { s with stack := ⟨handled, .draining r (count + 1)⟩ :: rest } else none
    | _ => none
  | .handleThrows => match s.stack with
    | ⟨_, .handling ..⟩ :: rest => if s.free then some { s with stack := rest } else none
    | _ => none
  | .prepareToDestroy =>
    if s.free ∧ s.phase = .running then some { s with phase := .destroying [] } else none
  | .visit r throws => match s.phase with
    | .destroying visited =>
      if r < s.next ∧ (s.regs r).registered ∧ r ∉ visited then
        -- Only the first cancel calls `unregistered`.
        some { s.setReg r (s.regs r).cancelNow with
          phase := if throws ∧ !(s.regs r).canceled then .threw else .destroying (r :: visited) }
      else none
    | _ => none
  | .clear => match s.phase with
    | .destroying visited =>
      if ∀ r < s.next, (s.regs r).registered → r ∈ visited then
        some { s with
          regs := fun r => { s.regs r with registered := false }
          runnableRegistrations := []
          phase := .destroyed }
      else none
    | _ => none

end LoomIoHandler

end Sqlol

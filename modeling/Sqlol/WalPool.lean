/-
`SqliteWalPool`: calls of `exec`, `queryLong` and `queryText` from any number of
threads, over the channels of its workers.

A call takes the lock (`exec` alone, a query beside other queries), borrows a channel
from the queue, submits its statement there and puts the channel back. The workers run
beside all that. Each channel is a `WorkerChannel.Channel`, so that a step of the pool
is a step of one channel, of one thread, or of both.

A `take` or `put` that finds its thread interrupted throws; behind the `put` the
channel is lost.
-/
import Sqlol.ChannelProgress
import Mathlib.Data.List.Nodup

namespace Sqlol

open WorkerChannel (Channel Text Reply)

namespace SqliteWalPool

/-- The two ways to use the pool. -/
inductive Kind where
  | exec
  | query
  deriving DecidableEq

/-- Where a call of a thread is. -/
inductive Pc where
  | out
  | lock (kind : Kind) (sql : Text)
  /-- `idle.take()`. -/
  | take (kind : Kind) (sql : Text)
  | borrowed (kind : Kind) (sql : Text) (ch : Nat)
  | driving (kind : Kind) (sql : Text) (ch : Nat)
  /-- `idle.put(ch)`. -/
  | put (kind : Kind) (ch : Nat)
  | unlock (kind : Kind)
  deriving DecidableEq

/-- The lock a call holds. -/
def Pc.locks : Pc → Option Kind
  | .take kind _ | .borrowed kind .. | .driving kind .. | .put kind _ | .unlock kind => some kind
  | .out | .lock .. => none

/-- The channel a call holds. -/
def Pc.holds : Pc → Option Nat
  | .borrowed _ _ ch | .driving _ _ ch | .put _ ch => some ch
  | .out | .lock .. | .take .. | .unlock _ => none

/-- The channels, the queue of the idle ones, the read-write lock and where the calls are. -/
structure Pool where
  channels : List Nat
  idle : List Nat
  chan : Nat → Channel
  readers : List Nat := []
  writer : Option Nat := none
  pc : Nat → Pc := fun _ => .out

/-- The pool as `open` hands it out. -/
def opened (channels : List Nat) (chan : Nat → Channel) : Pool := { channels, idle := channels, chan }

/-- The steps of the threads `t`, of the workers, and `close`. -/
inductive Label where
  | call (t : Nat) (kind : Kind) (sql : Text)
  | lock (t : Nat)
  | take (t : Nat)
  | takeThrows (t : Nat)
  | submit (t : Nat)
  /-- A step of `submit` on the channel of `t`. -/
  | drive (t : Nat)
  | timeout (t : Nat)
  | giveUp (t : Nat)
  /-- `submit` returns or throws. -/
  | leave (t : Nat)
  | put (t : Nat)
  | putThrows (t : Nat)
  | unlock (t : Nat)
  | worker (ch : Nat)
  | exec (ch : Nat) (rows : List (List (Option Text))) (rc : Int)
  /-- The two steps of `close` on a channel. -/
  | stop (ch : Nat)
  | stopWake (ch : Nat)

namespace Pool

/-- The call goes on at `pc`. -/
def goto (p : Pool) (t : Nat) (pc : Pc) : Pool := { p with pc := Function.update p.pc t pc }

/-- A step of a channel. -/
def act (p : Pool) (atoll : Text → Int) (ch : Nat) (l : WorkerChannel.Label) : Option Pool :=
  (WorkerChannel.step atoll (p.chan ch) l).map fun s => { p with chan := Function.update p.chan ch s }

/-- The read-write lock is given back. -/
def release (p : Pool) (t : Nat) : Kind → Pool
  | .exec => { p with writer := none }
  | .query => { p with readers := p.readers.erase t }

end Pool

/-- One step; none where it is not the next one. -/
def step (atoll : Text → Int) (p : Pool) : Label → Option Pool
  | .call t kind sql => match p.pc t with
    | .out => some (p.goto t (.lock kind sql))
    | _ => none
  | .lock t => match p.pc t with
    | .lock .exec sql =>
      if p.writer = none ∧ p.readers = [] then some { p.goto t (.take .exec sql) with writer := some t } else none
    | .lock .query sql =>
      if p.writer = none then some { p.goto t (.take .query sql) with readers := t :: p.readers } else none
    | _ => none
  | .take t => match p.pc t, p.idle with
    | .take kind sql, ch :: idle => some { p.goto t (.borrowed kind sql ch) with idle := idle }
    | _, _ => none
  | .takeThrows t => match p.pc t with
    | .take kind _ => some (p.goto t (.unlock kind))
    | _ => none
  | .submit t => match p.pc t with
    | .borrowed kind sql ch => (p.goto t (.driving kind sql ch)).act atoll ch (.submit sql)
    | _ => none
  | .drive t => match p.pc t with
    | .driving _ _ ch => p.act atoll ch .driver
    | _ => none
  | .timeout t => match p.pc t with
    | .driving _ _ ch => p.act atoll ch .timeout
    | _ => none
  | .giveUp t => match p.pc t with
    | .driving _ _ ch => p.act atoll ch .giveUp
    | _ => none
  | .leave t => match p.pc t with
    | .driving kind _ ch => (p.goto t (.put kind ch)).act atoll ch .leave
    | _ => none
  | .put t => match p.pc t with
    | .put kind ch =>
      -- The queue has room for all channels and no more.
      if p.idle.length < p.channels.length then some { p.goto t (.unlock kind) with idle := p.idle ++ [ch] } else none
    | _ => none
  | .putThrows t => match p.pc t with
    | .put kind _ => some (p.goto t (.unlock kind))
    | _ => none
  | .unlock t => match p.pc t with
    | .unlock kind => some ((p.goto t .out).release t kind)
    | _ => none
  | .worker ch => p.act atoll ch .worker
  | .exec ch rows rc => p.act atoll ch (.exec rows rc)
  | .stop ch => if ch ∈ p.channels then p.act atoll ch .stop else none
  | .stopWake ch => p.act atoll ch .stopWake

/-- No submission is given up, and `close` comes when nobody is in `submit`, and last. -/
def Careful (p : Pool) : Label → Prop
  | .giveUp _ => False
  | .stop ch => (p.chan ch).driver.out = true
  | .submit t => ∀ ch, (p.pc t).holds = some ch → (p.chan ch).stopped = false
  | _ => True

instance (p : Pool) : ∀ l, Decidable (Careful p l)
  | .giveUp _ => inferInstanceAs (Decidable False)
  | .stop ch => inferInstanceAs (Decidable ((p.chan ch).driver.out = true))
  | .submit t => match h : (p.pc t).holds with
    | none => .isTrue fun _ hch => nomatch h.symm.trans hch
    | some ch => decidable_of_iff ((p.chan ch).stopped = false)
      ⟨fun hs _ hc => Option.some.inj (h.symm.trans hc) ▸ hs, fun hs => hs ch h⟩
  | .call .. | .lock _ | .take _ | .takeThrows _ | .drive _ | .timeout _ | .leave _ | .put _ | .putThrows _ | .unlock _
  | .worker _ | .exec .. | .stopWake _ => inferInstanceAs (Decidable True)

end SqliteWalPool

end Sqlol

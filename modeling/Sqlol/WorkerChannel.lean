/-
The channel between a worker of `SqliteWalPool` and whoever drives it: `submit` in
Kotlin and `worker_file_2addr_main` in C, over a shared `bchannel_t`.

The driver writes the statement, sets `req` to 1 and wakes the worker, then sleeps on
`done` until it is no longer what it was; the worker sleeps on `req`, takes the request
by setting it back to 0, runs the statement and adds one to `done`. Nobody polls: a
wake-up that got lost would leave both asleep. The 30 seconds of the driver are a
watchdog, which gives the call up and leaves the worker with it.

Each access to `req` and `done` is a step of its own, and so are the calls of `wait`
and `notify`; what `sqlite3_exec` does is any list of rows and any code.
-/
import Sqlol.Futex
import Sqlol.Runs

namespace Sqlol

namespace WorkerChannel

/-- A text, as its bytes. -/
abbrev Text := List UInt8

/-- The bytes before the first NUL. -/
def cString (bytes : Text) : Text := bytes.takeWhile (· ≠ 0)

/-- `result`, `got` and `restext`: what `row_cb2` keeps of the rows. -/
structure Capture where
  result : Int := 0
  got : Bool := false
  restext : Text := []

/-- What the driver reads of an answer. -/
structure Reply where
  rc : Int
  result : Int
  restext : Text
  deriving DecidableEq

/-- The first column of a row, when the row has one and it is not NULL. -/
def firstColumn : List (Option Text) → Option Text
  | some value :: _ => some value
  | _ => none

/-- The callback of a row: the first value that is not NULL is kept. -/
def row_cb2 (atoll : Text → Int) (c : Capture) (vals : List (Option Text)) : Capture :=
  match c.got, firstColumn vals with
  | false, some value => { result := atoll value, got := true, restext := value.take 2047 }
  | _, _ => c

/-- The two words of the channel, each an address to wait on. -/
inductive Word where
  | req
  | done
  deriving DecidableEq

/-- The two ends of the channel. -/
inductive Party where
  | driver
  | worker
  deriving DecidableEq

/-- Where `submitOnce` is. -/
inductive Pc where
  | write
  | readDone
  | post (prevDone : UInt32)
  | wake (prevDone : UInt32)
  | check (prevDone : UInt32)
  | deadline (prevDone : UInt32)
  | wait (prevDone : UInt32)
  | parked (prevDone : UInt32)
  | collect
  /-- `Thread.sleep(10)` in `submit`. -/
  | pause
  deriving DecidableEq

/-- Where the driver is. -/
inductive Driver where
  | idle
  /-- In `submit`, with the replies so far: the loop has gone round as often. -/
  | inCall (sql : Text) (tries : List Reply) (pc : Pc)
  /-- `submit` has returned, or thrown. -/
  | returned (outcome : Option Reply)

/-- Where the worker is. -/
inductive Worker where
  | opening
  | load
  | wait (r : UInt32)
  | parked
  | clear
  | zero
  | exec
  | count
  | finish (done : UInt32)
  | notify
  | ended
  deriving DecidableEq

/-- The last three are notes that no step reads: the requests posted, the statements run
with what came of them, and the calls that returned with all their replies. -/
structure Channel where
  futex : Futex Word Party UInt32 := { word := fun _ => 0 }
  sql : Text := []
  rc : Int := 0
  capture : Capture := {}
  driver : Driver := .idle
  worker : Worker := .opening
  stopped : Bool := false
  stopOwed : Bool := false
  posted : List Text := []
  executed : List (Text × Reply) := []
  calls : List (Text × List Reply) := []

/-- The steps of the driver and the worker, and what comes between them. -/
inductive Label where
  /-- `submit` is called. -/
  | submit (sql : Text)
  /-- The next step of the driver, before its deadline. -/
  | driver
  /-- The deadline has passed, or an interrupt ends a sleep of the driver. -/
  | giveUp
  /-- `atomicWait` returns because its time is over. -/
  | timeout
  /-- The caller goes on with the outcome. -/
  | leave
  /-- The next step of the worker. -/
  | worker
  /-- `sqlite3_exec` has given these rows and returned. -/
  | exec (rows : List (List (Option Text))) (rc : Int)
  /-- The two steps of `close`. -/
  | stop
  | stopWake

namespace Channel

/-- What the driver collects. -/
def reply (s : Channel) : Reply := ⟨s.rc, s.capture.result, s.capture.restext⟩

/-- `mem.write` of the statement and of the NUL behind it. -/
def putSql (s : Channel) (sql : Text) : Channel := { s with sql := sql ++ 0 :: s.sql.drop (sql.length + 1) }

/-- The end of an attempt: `submit` tries again while SQLite is busy, a hundred times. -/
def collect (s : Channel) (sql : Text) (tries : List Reply) : Channel :=
  if s.rc = 5 ∧ tries.length < 100 then { s with driver := .inCall sql (tries ++ [s.reply]) .pause }
  else { s with driver := .returned (some s.reply), calls := s.calls ++ [(sql, tries ++ [s.reply])] }

/-- The next step of `submitOnce`. -/
def drive (s : Channel) (sql : Text) (tries : List Reply) : Pc → Option Channel
  | .write => some { s.putSql sql with driver := .inCall sql tries .readDone }
  | .readDone => some { s with driver := .inCall sql tries (.post (s.futex.word .done)) }
  | .post prevDone =>
    some { s with
      futex := s.futex.store .req 1
      driver := .inCall sql tries (.wake prevDone)
      posted := s.posted ++ [cString s.sql] }
  | .wake prevDone => some { s with futex := s.futex.notify .req 1, driver := .inCall sql tries (.check prevDone) }
  | .check prevDone =>
    let next := if s.futex.word .done = prevDone then .deadline prevDone else .collect
    some { s with driver := .inCall sql tries next }
  | .deadline prevDone => some { s with driver := .inCall sql tries (.wait prevDone) }
  | .wait prevDone =>
    some { s with futex := s.futex.wait .driver .done prevDone, driver := .inCall sql tries (.parked prevDone) }
  | .parked prevDone =>
    if s.futex.Asleep .driver then none else some { s with driver := .inCall sql tries (.check prevDone) }
  | .collect => some (s.collect sql tries)
  | .pause => some { s with driver := .inCall sql tries .write }

/-- The next step of `worker_file_2addr_main`. -/
def work (s : Channel) : Worker → Option Channel
  | .opening => some { s with worker := .load }
  | .load =>
    let r := s.futex.word .req
    some { s with worker := if r = 1 then .clear else if r = 3 then .ended else .wait r }
  | .wait r => some { s with futex := s.futex.wait .worker .req r, worker := .parked }
  | .parked => if s.futex.Asleep .worker then none else some { s with worker := .load }
  | .clear => some { s with futex := s.futex.store .req 0, worker := .zero }
  | .zero => some { s with capture := {}, worker := .exec }
  | .exec => none
  | .count => some { s with worker := .finish (s.futex.word .done) }
  | .finish done => some { s with futex := s.futex.store .done (done + 1), worker := .notify }
  | .notify => some { s with futex := s.futex.notify .done 1, worker := .load }
  | .ended => none

/-- `sqlite3_exec` has run what `sql` holds, `row_cb2` for each row. -/
def exec (s : Channel) (atoll : Text → Int) (rows : List (List (Option Text))) (rc : Int) : Channel :=
  let s' := { s with capture := rows.foldl (row_cb2 atoll) s.capture, rc := rc, worker := .count }
  { s' with executed := s.executed ++ [(cString s.sql, s'.reply)] }

end Channel

/-- One step; none where it is not the next one. -/
def step (atoll : Text → Int) (s : Channel) : Label → Option Channel
  | .submit sql => match s.driver with
    | .idle =>
      if sql.length < 4072 then some { s with driver := .inCall sql [] .write }
      else some { s with driver := .returned none }
    | _ => none
  | .driver => match s.driver with
    | .inCall sql tries pc => s.drive sql tries pc
    | _ => none
  | .giveUp => match s.driver with
    | .inCall _ _ (.deadline _) | .inCall _ _ .pause => some { s with driver := .returned none }
    | .inCall _ _ (.parked _) => some { s with futex := s.futex.timeout .driver, driver := .returned none }
    | _ => none
  | .timeout => if s.futex.Asleep .driver then some { s with futex := s.futex.timeout .driver } else none
  | .leave => match s.driver with
    | .returned _ => some { s with driver := .idle }
    | _ => none
  | .worker => s.work s.worker
  | .exec rows rc => if s.worker = .exec then some (s.exec atoll rows rc) else none
  | .stop => some { s with futex := s.futex.store .req 3, stopped := true, stopOwed := true }
  | .stopWake => if s.stopOwed then some { s with futex := s.futex.notify .req 1, stopOwed := false } else none

/-- The statements and replies of the calls that returned, then of the one under way. -/
def Channel.collected (s : Channel) : List (Text × Reply) :=
  s.calls.flatMap (fun call => call.2.map fun r => (cString call.1, r)) ++
    match s.driver with
    | .inCall sql tries _ => tries.map fun r => (cString sql, r)
    | .idle | .returned _ => []

end WorkerChannel

end Sqlol

/-
The order of a shutdown, over the three ways to close a database.

While no `stop` of a runtime's workers throws, the runtime's files and the
ownership of the database go behind the last worker, on every path. A `stop`
that throws breaks that by design: the `finally` blocks hand the ownership
back whatever happened before, so a worker that did not stop in time still
runs its statement on a file that another process may now own
(`lock_released_under_writer`). `SqliteWal.close` at least keeps the files
open then.
-/
import Sqlol.DataSourceClose
import Sqlol.PortClose

namespace Sqlol

/-- **Ownership outlives the workers that stop.** Over every run of
`SqliteWal.close` calls, of a data source whose `close` overlaps no other
call, and of ports on any paths: unless a `stop` of the runtime has thrown,
neither is its owner lock released nor are its files closed while one of its
workers can execute SQL. -/
theorem ownership_outlives_workers (readers : Nat) (wal : List SqliteWal.Label)
    (ds : List SqliteDataSource.Label) (ports : List WorkerDbPort.Label)
    (h : EveryStep SqliteDataSource.step SqliteDataSource.NoOverlap {} ds) :
    EveryState (SqliteWal.step readers) (SqliteWal.Safe readers) {} wal ∧
    EveryState SqliteDataSource.step SqliteDataSource.Safe {} ds ∧
    EveryState WorkerDbPort.step WorkerDbPort.Safe {} ports :=
  ⟨SqliteWal.close_run_safe readers wal, SqliteDataSource.close_run_safe ds h,
    WorkerDbPort.close_run_safe ports⟩

/-- A data source with one connection, closed. -/
def closeOne : List SqliteDataSource.Label :=
  [.getConnection 0, .spawn 0 true, .dsClose 1 [0], .dsNext 1, .conMark 1, .stop 1 .returns, .remove 1,
   .rtClose 1, .unlock 1]

/-- Its run meets the condition and ends with the ownership given up behind the worker. -/
theorem ownership_outlives_workers_closeOne :
    (run SqliteDataSource.step {} closeOne).map (fun s => (s.rt.lockReleased, s.rt.threw, (s.workers 0).closed)) =
      some (true, false, true) ∧
    EveryState SqliteDataSource.step SqliteDataSource.Safe {} closeOne := by
  refine ⟨by decide, (ownership_outlives_workers 0 [] closeOne [] ?_).2.1⟩
  refine ⟨fun d _ => rfl, fun s hs => ⟨trivial, fun s' hs' => ⟨fun d hd => ?_, fun _ _ => ?_⟩⟩⟩
  · cases hs
    cases hs'
    by_cases h0 : d = 0
    · subst h0; rfl
    · simp [SqliteDataSource.Sys.goto, Function.update_of_ne h0, SqliteDataSource.Pc.away]
  · exact ⟨trivial, fun _ _ => ⟨trivial, fun _ _ => ⟨trivial, fun _ _ => ⟨trivial, fun _ _ => ⟨trivial,
      fun _ _ => ⟨trivial, fun _ _ => trivial⟩⟩⟩⟩⟩⟩

/-- **The lock goes under a running writer**: its statement holds the worker's
lock for 60 s, `stop` throws, and `finally` gives the ownership up. -/
theorem lock_released_under_writer :
    ¬ EveryState (SqliteWal.step 1) (fun s => s.rt.lockReleased = true → SqliteWal.Stopped 1 s) {}
      [.enter 0, .close 0, .stop 0 .lockTimeout, .unlock 0] := by
  intro hall
  have hend : (run (SqliteWal.step 1) {} [.enter 0, .close 0, .stop 0 .lockTimeout, .unlock 0]).map
      (fun s => (s.rt.lockReleased, s.workers 0)) = some (true, ⟨false, true⟩) := by decide
  obtain ⟨s, hs, he⟩ := Option.map_eq_some_iff.mp hend
  simp only [Prod.mk.injEq] at he
  have hstopped := hall.last hs he.1 0 (Nat.zero_le 1)
  rw [he.2] at hstopped
  cases hstopped.1

end Sqlol

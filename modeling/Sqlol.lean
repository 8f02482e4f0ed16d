import Sqlol.Runs
import Sqlol.Int32
import Sqlol.Table
import Sqlol.ReentrantLock
import Sqlol.Prog
import Sqlol.RwLock
import Sqlol.JvmVfsLocks
import Sqlol.FileLevels
import Sqlol.ShmSlots
import Sqlol.ShmArena
import Sqlol.ArenaFacts
import Sqlol.ShmSharing
import Sqlol.DbOwnerLock
import Sqlol.DbOwnerLockFacts
import Sqlol.ReaderPool
import Sqlol.Aggregates
import Sqlol.SessionRun
import Sqlol.WalClose
import Sqlol.DataSourceClose
import Sqlol.PortClose
import Sqlol.Shutdown
import Sqlol.WorkerCalls
import Sqlol.DataSourceRace
import Sqlol.FailedOpen
import Sqlol.RuntimeRegistry
import Sqlol.OneRuntime
import Sqlol.Statements
import Sqlol.StatementFacts
import Sqlol.Lifecycle
import Sqlol.PreparedStatement
import Sqlol.RowShape
import Sqlol.PortHandles
import Sqlol.LockContract
import Sqlol.PortRelease
import Sqlol.LoomIoHandler
import Sqlol.IoDelivery
import Sqlol.IoTeardown
import Sqlol.LoomScheduler
import Sqlol.SchedulerTiming
import Sqlol.SchedulerDone
import Sqlol.DispatcherTimers
import Sqlol.RepeatedClose
import Sqlol.BackupCode
import Sqlol.BackupRelease
import Sqlol.BackupTarget
import Sqlol.SpawnHandshake
import Sqlol.CallbackRegistry
import Sqlol.CallbackKeys
import Sqlol.CallbackAgreement
import Sqlol.NestedUdf
import Sqlol.FunctionOverloads
import Sqlol.ColumnMetadata
import Sqlol.FailedSpawn
import Sqlol.ParkedCarriers
import Sqlol.BindRoundTrip
import Sqlol.FlatMemory
import Sqlol.MemoryBounds
import Sqlol.SessionBuffers
import Sqlol.ScalarAndRow
import Sqlol.PoolServes
import Sqlol.PreparedBatch
import Sqlol.Savepoints
import Sqlol.TransactionRuns
import Sqlol.JdbcStatements
import Sqlol.ResultSets
import Sqlol.ResultSetRuns

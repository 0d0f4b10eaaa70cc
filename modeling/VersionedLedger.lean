import VersionedLedger.Account
import VersionedLedger.Decimal.Fixed
import VersionedLedger.Decimal.Read
import VersionedLedger.Record
import VersionedLedger.Text.Blank
import VersionedLedger.Text.Inspect
import VersionedLedger.Text.Json
import VersionedLedger.Config.Inspect
import VersionedLedger.Store.State
import VersionedLedger.Circuit.Registry
import VersionedLedger.Retry.Backoff
import VersionedLedger.Retry.Metrics
import VersionedLedger.Pool
import VersionedLedger.Ledger.Operations
import VersionedLedger.Scenario.Contention
import VersionedLedger.Scenario.Flaky
import VersionedLedger.Scenario.Pattern
import VersionedLedger.Circuit.Inspect
import VersionedLedger.Store.Inspect
import VersionedLedger.Config.Reading
import VersionedLedger.Command.Arguments
import VersionedLedger.Command.Run
import VersionedLedger.Document.Config
import VersionedLedger.Document.Failure
import VersionedLedger.Document.Request
import VersionedLedger.Document.SavedReport
import VersionedLedger.Main
import VersionedLedger.Proofs.Circuit.Window
import VersionedLedger.Proofs.Circuit.Course
import VersionedLedger.Proofs.Circuit.History
import VersionedLedger.Proofs.Lock.Chain
import VersionedLedger.Proofs.Lock.Rounds
import VersionedLedger.Proofs.Pool.Turn
import VersionedLedger.Proofs.Pool.Locks
import VersionedLedger.Proofs.Pool.Order
import VersionedLedger.Proofs.Program.Retry
import VersionedLedger.Proofs.Serial.Alone
import VersionedLedger.Proofs.Serial.Promise
import VersionedLedger.Proofs.Serial.Replay
import VersionedLedger.Proofs.Serial.Balance
import VersionedLedger.Proofs.Store.Commit
import VersionedLedger.Proofs.Store.Scope
import VersionedLedger.Proofs.Circuit.Change
import VersionedLedger.Proofs.Circuit.Stale
import VersionedLedger.Proofs.Circuit.Wait
import VersionedLedger.Proofs.Circuit.Probes
import VersionedLedger.Proofs.Program.Attempts
import VersionedLedger.Proofs.Program.Cancelled
import VersionedLedger.Proofs.Program.Guarded
import VersionedLedger.Proofs.Pool.Exclusive
import VersionedLedger.Proofs.Store.Versions
import VersionedLedger.Proofs.Circuit.Path
import VersionedLedger.Proofs.Store.Effects
import VersionedLedger.Proofs.Store.Finished
import VersionedLedger.Proofs.Ledger.Faults
import VersionedLedger.Proofs.Serial.Faltering
import VersionedLedger.Proofs.Pool.Fair
import VersionedLedger.Proofs.Pool.Pact
import VersionedLedger.Proofs.Scenario.Debits
import VersionedLedger.Proofs.Scenario.Contention
import VersionedLedger.Proofs.Pool.Dialogue
import VersionedLedger.Proofs.Program.Calls
import VersionedLedger.Proofs.Program.Counted
import VersionedLedger.Proofs.Ledger.Books
import VersionedLedger.Proofs.Ledger.Callers
import VersionedLedger.Proofs.Pool.Recorded
import VersionedLedger.Proofs.Program.Plain
import VersionedLedger.Proofs.Scenario.Overflow
import VersionedLedger.Proofs.Scenario.Retries
import VersionedLedger.Proofs.Program.Confined
import VersionedLedger.Proofs.Scenario.Opposite
import VersionedLedger.Proofs.Serial.Settlement
import VersionedLedger.Proofs.Store.OwnWrites
import VersionedLedger.Proofs.Ledger.Conflicts
import VersionedLedger.Proofs.Program.Nested
import VersionedLedger.Proofs.Ledger.Deadlocks
import VersionedLedger.Proofs.Circuit.FirstUse
import VersionedLedger.Proofs.Pool.Grants
import VersionedLedger.Proofs.Scenario.Recovery
import VersionedLedger.Proofs.Store.Injector
import VersionedLedger.Proofs.Text.Pattern

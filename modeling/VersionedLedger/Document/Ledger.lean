import VersionedLedger.Circuit.Breaker
import VersionedLedger.Retry.Metrics
import VersionedLedger.Store.State
import VersionedLedger.Text.Json.Lookup
import VersionedLedger.Transfer.Receipt
import VersionedLedger.Transfer.Deadlocks

/-! Records, updates, transactions, receipts and counters as JSON documents. -/
namespace VersionedLedger

open Text Text.Json

namespace Amount

def document (a : Amount) : Json := whole a.toInt

def ofDocument (j : Json) : Amount := Int64.ofInt j.int

end Amount

namespace Record

def document (r : Record) : Json := members
  [("id", natural r.id), ("balance", Amount.document r.balance), ("version", natural r.version)]

end Record

namespace Update

/-- An update has no document if the change of its balance leaves the word. -/
def document (u : Update) : Outcome Json := do
  let delta ← u.delta
  pure (members
    [("before", u.before.document), ("after", u.after.document),
     ("delta", Amount.document delta)])

end Update

namespace StagedWrite

def document (s : StagedWrite) : Outcome Json := do
  let version ← s.version?
  pure (members
    [("base", natural s.base), ("balance", Amount.document s.balance),
     ("writes", natural s.writes), ("version", natural version)])

end StagedWrite

namespace TransactionStatus

def document : TransactionStatus → Json
  | active => text "active"
  | committed => text "committed"
  | aborted reason => members [("aborted", text reason)]

end TransactionStatus

namespace Transaction

def document (t : Transaction) : Json := members
  [("status", t.status.document), ("active", flag t.isActive), ("read_only", flag t.isReadOnly),
   ("writes", list (t.writes.toList.map fun (id, w) => members
     [("id", natural id), ("base", natural w.base), ("balance", Amount.document w.balance),
      ("writes", natural w.writes)])),
   ("held", list (t.held.map natural))]

end Transaction

namespace Receipt

def document (r : Receipt) : Json := members
  [("from", natural r.transfer.source), ("to", natural r.transfer.target),
   ("amount", Amount.document r.transfer.amount),
   ("from_balance", Amount.document r.sourceBalance),
   ("to_balance", Amount.document r.targetBalance),
   ("from_version", natural r.sourceVersion), ("to_version", natural r.targetVersion)]

end Receipt

namespace LockStats

def document (s : LockStats) : Json := members
  [("acquired", natural s.acquired), ("waits", natural s.waits), ("timeouts", natural s.timeouts),
   ("deadlocks", natural s.deadlocks)]

end LockStats

namespace Store

def statsDocument (s : Store) : Json := members
  [("commits", natural s.commits), ("aborts", natural s.aborts),
   ("conflicts", natural s.conflicts), ("locks", s.locks.stats.document)]

def document (s : Store) : Json := list (s.records.values.map Record.document)

end Store

namespace DeadlockStats

def document (s : DeadlockStats) : Json := members
  [("deadlocks_detected", natural s.deadlocksDetected), ("retries", natural s.retries),
   ("successes", natural s.successes), ("failures", natural s.failures)]

end DeadlockStats

namespace CircuitState

def document (s : CircuitState) : Json := text s.name

/-- A stored state is its name, or an object with the name as its only member and nothing in it. -/
def ofStored? : Json → Option CircuitState
  | .text name | .members [(name, .null)] => ofName? name
  | _ => none

end CircuitState

namespace CircuitMetrics

def figures (m : CircuitMetrics) : List (String × Json) :=
  [("state", m.state.document), ("failure_rate", option real m.failureRate),
   ("slow_call_rate", option real m.slowCallRate), ("buffered_calls", natural m.buffered),
   ("successful_calls", natural m.successful), ("failed_calls", natural m.failed),
   ("slow_calls", natural m.slow), ("not_permitted_calls", natural m.notPermitted),
   ("state_transitions", natural m.transitions)]

def document (m : CircuitMetrics) : Json := members (("name", text m.name) :: m.figures)

end CircuitMetrics

namespace RetrySnapshot

def document (s : RetrySnapshot) : Json := members
  [("total_attempts", natural s.totals.attempts), ("total_successes", natural s.totals.successes),
   ("total_failures", natural s.totals.failures), ("total_fallbacks", natural s.totals.fallbacks),
   ("success_rate", real s.successRate),
   ("average_attempts_per_operation", real s.averageAttempts)]

end RetrySnapshot

end VersionedLedger

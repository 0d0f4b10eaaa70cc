import VersionedLedger.Document.Ledger
import VersionedLedger.Scenario.Report

/-! Reports of runs as JSON documents. -/
namespace VersionedLedger

open Text Text.Json

namespace ContentionReport

def members (r : ContentionReport) : List (String × Json) :=
  [("operations", natural r.operations), ("successes", natural r.successes),
   ("failures", natural r.failures), ("retries", natural r.retries),
   ("avg_retries", real r.averageRetries), ("conflicts", natural r.conflicts),
   ("conflict_rate", real r.conflictRate),
   ("initial_balance", Amount.document r.initialBalance),
   ("final_balance", Amount.document r.finalBalance),
   ("expected_balance", Amount.document r.expectedBalance),
   ("initial_version", natural r.initialVersion), ("final_version", natural r.finalVersion),
   ("balance_correct", flag r.balanceCorrect), ("duration_ms", natural r.duration)]

end ContentionReport

namespace LockContentionReport

def members (r : LockContentionReport) : List (String × Json) :=
  [("operations", natural r.operations), ("successes", natural r.successes),
   ("failures", natural r.failures), ("total_lock_wait_ms", natural r.totalLockWait),
   ("avg_lock_wait_ms", real r.averageLockWait), ("max_lock_wait_ms", natural r.maxLockWait),
   ("operations_per_second", real r.operationsPerSecond),
   ("initial_balance", Amount.document r.initialBalance),
   ("final_balance", Amount.document r.finalBalance),
   ("expected_balance", Amount.document r.expectedBalance),
   ("balance_correct", flag r.balanceCorrect), ("duration_ms", natural r.duration)]

end LockContentionReport

namespace DeadlockReport

def members (r : DeadlockReport) : List (String × Json) :=
  [("transfers", natural r.transfers), ("deadlocks_detected", natural r.deadlocksDetected),
   ("retries", natural r.retries), ("successes", natural r.successes),
   ("failures", natural r.failures), ("total_before", Amount.document r.totalBefore),
   ("total_after", Amount.document r.totalAfter),
   ("balance_conserved", flag r.balanceConserved), ("duration_ms", natural r.duration)]

end DeadlockReport

namespace BreakerCall

def document (c : BreakerCall) : Json := Json.members
  [("index", natural c.index), ("injected_failure", flag c.injectedFailure),
   ("state_before", c.stateBefore.document), ("state_after", c.stateAfter.document),
   ("succeeded", flag c.succeeded), ("rejected", flag c.rejected),
   ("error", option text c.error)]

end BreakerCall

namespace BreakerReport

def members (r : BreakerReport) : List (String × Json) :=
  [("calls", list (r.calls.map BreakerCall.document)), ("metrics", r.metrics.document)]

end BreakerReport

namespace RetryReport

def members (r : RetryReport) : List (String × Json) :=
  [("injected_failures", natural r.injectedFailures), ("succeeded", flag r.succeeded),
   ("attempts", natural r.attempts), ("error", option text r.error),
   ("duration_ms", natural r.duration)]

end RetryReport

inductive ScenarioReport
  | optimistic (r : ContentionReport)
  | pessimistic (r : LockContentionReport)
  | deadlock (ordered : Bool) (r : DeadlockReport)
  | retry (r : RetryReport) (metrics : RetrySnapshot)
  | breaker (run : BreakerReport) (recovery : Option BreakerReport)

namespace ScenarioReport

def document (r : ScenarioReport) : Json := Json.members <|
  match r with
  | optimistic r => ("scenario", text "optimistic") :: r.members
  | pessimistic r => ("scenario", text "pessimistic") :: r.members
  | deadlock ordered r =>
    [("scenario", text "deadlock"), ("ordered", flag ordered), ("report", Json.members r.members)]
  | retry r metrics =>
    [("scenario", text "retry"), ("report", Json.members r.members),
     ("metrics", metrics.document)]
  | breaker run recovery =>
    [("scenario", text "breaker"), ("run", Json.members run.members),
     ("recovery", option (fun r => Json.members r.members) recovery)]

end ScenarioReport

end VersionedLedger

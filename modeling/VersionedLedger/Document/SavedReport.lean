import VersionedLedger.Document.Report

/-! Reports read back from their documents. -/
namespace VersionedLedger

open Text Text.Json

namespace ContentionReport

def ofDocument (j : Json) : ContentionReport where
  operations := j["operations"].nat
  successes := j["successes"].nat
  failures := j["failures"].nat
  retries := j["retries"].nat
  averageRetries := j["avg_retries"].float
  conflicts := j["conflicts"].nat
  conflictRate := j["conflict_rate"].float
  initialBalance := .ofDocument j["initial_balance"]
  finalBalance := .ofDocument j["final_balance"]
  expectedBalance := .ofDocument j["expected_balance"]
  initialVersion := j["initial_version"].nat
  finalVersion := j["final_version"].nat
  balanceCorrect := j["balance_correct"].isTrue
  duration := j["duration_ms"].nat

end ContentionReport

namespace LockContentionReport

def ofDocument (j : Json) : LockContentionReport where
  operations := j["operations"].nat
  successes := j["successes"].nat
  failures := j["failures"].nat
  totalLockWait := j["total_lock_wait_ms"].nat
  averageLockWait := j["avg_lock_wait_ms"].float
  maxLockWait := j["max_lock_wait_ms"].nat
  operationsPerSecond := j["operations_per_second"].float
  initialBalance := .ofDocument j["initial_balance"]
  finalBalance := .ofDocument j["final_balance"]
  expectedBalance := .ofDocument j["expected_balance"]
  balanceCorrect := j["balance_correct"].isTrue
  duration := j["duration_ms"].nat

end LockContentionReport

namespace DeadlockReport

def ofDocument (j : Json) : DeadlockReport where
  transfers := j["transfers"].nat
  deadlocksDetected := j["deadlocks_detected"].nat
  retries := j["retries"].nat
  successes := j["successes"].nat
  failures := j["failures"].nat
  totalBefore := .ofDocument j["total_before"]
  totalAfter := .ofDocument j["total_after"]
  balanceConserved := j["balance_conserved"].isTrue
  duration := j["duration_ms"].nat

end DeadlockReport

namespace RetryReport

def ofDocument (j : Json) : RetryReport where
  injectedFailures := j["injected_failures"].nat
  succeeded := j["succeeded"].isTrue
  attempts := j["attempts"].nat
  error := j["error"].given?.map str
  duration := j["duration_ms"].nat

end RetryReport

namespace RetrySnapshot

def ofDocument (j : Json) : RetrySnapshot where
  totals :=
    { attempts := j["total_attempts"].nat
      successes := j["total_successes"].nat
      failures := j["total_failures"].nat
      fallbacks := j["total_fallbacks"].nat }
  successRate := j["success_rate"].float
  averageAttempts := j["average_attempts_per_operation"].float

end RetrySnapshot

namespace CircuitState

/-- A text that names no state counts as closed. -/
def ofDocument (j : Json) : CircuitState := (parse j.str).toOption.getD .closed

end CircuitState

namespace CircuitMetrics

def ofDocument (j : Json) : CircuitMetrics where
  name := j["name"].str
  state := .ofDocument j["state"]
  failureRate := j["failure_rate"].float?
  slowCallRate := j["slow_call_rate"].float?
  buffered := j["buffered_calls"].nat
  successful := j["successful_calls"].nat
  failed := j["failed_calls"].nat
  slow := j["slow_calls"].nat
  notPermitted := j["not_permitted_calls"].nat
  transitions := j["state_transitions"].nat

end CircuitMetrics

namespace BreakerCall

def ofDocument (j : Json) : BreakerCall where
  index := j["index"].nat
  injectedFailure := j["injected_failure"].isTrue
  stateBefore := .ofDocument j["state_before"]
  stateAfter := .ofDocument j["state_after"]
  succeeded := j["succeeded"].isTrue
  rejected := j["rejected"].isTrue
  error := j["error"].given?.map str

end BreakerCall

namespace BreakerReport

def ofDocument (j : Json) : BreakerReport where
  calls := j["calls"].items.map .ofDocument
  metrics := .ofDocument j["metrics"]

end BreakerReport

namespace ScenarioReport

def ofDocument? (j : Json) : Option ScenarioReport :=
  match j["scenario"].str with
  | "optimistic" => some (.optimistic (.ofDocument j))
  | "pessimistic" => some (.pessimistic (.ofDocument j))
  | "deadlock" => some (.deadlock j["ordered"].isTrue (.ofDocument j["report"]))
  | "retry" => some (.retry (.ofDocument j["report"]) (.ofDocument j["metrics"]))
  | "breaker" =>
    some (.breaker (.ofDocument j["run"]) (j["recovery"].given?.map .ofDocument))
  | _ => none

end ScenarioReport

end VersionedLedger

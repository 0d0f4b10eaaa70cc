import VersionedLedger.Circuit.State
import VersionedLedger.Time

/-! What the library reports while it works: attempts and finished retry loops, calls through a
circuit, and its changes of state. -/
namespace VersionedLedger

inductive AttemptOutcome
  | success
  | retryable
  | fatal
  deriving DecidableEq, Repr

namespace AttemptOutcome

def name : AttemptOutcome → String
  | success => "success"
  | retryable => "retryable"
  | fatal => "fatal"

end AttemptOutcome

structure Attempt where
  /-- Counted from 0. -/
  index : Nat
  /-- The wait before this attempt, none before the first. -/
  delayBefore : Duration
  outcome : AttemptOutcome
  deriving DecidableEq, Repr

structure RetrySummary where
  attempts : Nat
  totalDelay : Duration
  /-- The operation or its fallback gave a value. -/
  succeeded : Bool
  fallbackUsed : Bool
  deriving DecidableEq, Repr

inductive CallKind
  | success
  | failure
  | slow
  | notPermitted
  deriving DecidableEq, Repr

namespace CallKind

def name : CallKind → String
  | success => "success"
  | failure => "failure"
  | slow => "slow"
  | notPermitted => "not_permitted"

end CallKind

inductive Event
  | attempt (operation : String) (a : Attempt)
  | retry (operation : String) (s : RetrySummary)
  | call (operation : String) (kind : CallKind)
  | transition (operation : String) (before after : CircuitState)
  deriving DecidableEq, Repr

end VersionedLedger

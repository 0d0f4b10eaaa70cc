import VersionedLedger.Event

/-! Running totals over finished retry loops, and the rates derived from them. The totals have no upper end: at a
nanosecond for each attempt, it takes centuries to fill a word of 64 bits. -/
namespace VersionedLedger

structure RetryMetrics where
  attempts : Nat := 0
  successes : Nat := 0
  failures : Nat := 0
  fallbacks : Nat := 0
  deriving DecidableEq, Repr

namespace RetryMetrics

def record (m : RetryMetrics) (s : RetrySummary) : RetryMetrics where
  attempts := m.attempts + s.attempts
  successes := m.successes + if s.succeeded then 1 else 0
  failures := m.failures + if s.succeeded then 0 else 1
  fallbacks := m.fallbacks + if s.fallbackUsed then 1 else 0

def observe (m : RetryMetrics) : Event → RetryMetrics
  | .retry _ s => m.record s
  | _ => m

def operations (m : RetryMetrics) : Nat := m.successes + m.failures

def ratio (m : RetryMetrics) (numerator : Float) : Float :=
  if m.operations = 0 then 0.0 else numerator / m.operations.toUInt64.toFloat

def successRate (m : RetryMetrics) : Float := m.ratio (m.successes.toUInt64.toFloat * 100.0)

def averageAttempts (m : RetryMetrics) : Float := m.ratio m.attempts.toUInt64.toFloat

end RetryMetrics

structure RetrySnapshot where
  totals : RetryMetrics
  successRate : Float
  averageAttempts : Float

namespace RetryMetrics

def snapshot (m : RetryMetrics) : RetrySnapshot := ⟨m, m.successRate, m.averageAttempts⟩

end RetryMetrics

end VersionedLedger

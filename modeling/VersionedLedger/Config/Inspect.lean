import VersionedLedger.Config.Ledger
import VersionedLedger.Text.Inspect

/-! Settings as shown to a developer. -/
namespace VersionedLedger

open Text Text.Inspected

namespace Jitter

def inspect : Jitter → Inspected
  | none => word "None"
  | proportional factor => wrapped "Proportional" (Decimal.inspected.text factor)

end Jitter

namespace RetryConfig

def inspect (c : RetryConfig) : Inspected := record "RetryConfig"
  [("max_attempts", whole c.maxAttempts), ("base_delay_ms", whole c.baseDelay),
   ("multiplier", real c.multiplier), ("max_delay_ms", whole c.maxDelay),
   ("jitter", c.jitter.inspect)]

end RetryConfig

namespace CircuitConfig

def inspect (c : CircuitConfig) : Inspected := record "CircuitConfig"
  [("failure_rate_threshold", real c.failureRateThreshold),
   ("slow_call_rate_threshold", real c.slowCallRateThreshold),
   ("slow_call_duration_ms", whole c.slowCallDuration), ("minimum_calls", whole c.minimumCalls),
   ("sliding_window_size", whole c.slidingWindowSize), ("wait_duration_ms", whole c.waitDuration),
   ("permitted_probe_calls", whole c.permittedProbes)]

end CircuitConfig

namespace LedgerConfig

def inspect (c : LedgerConfig) : Inspected := record "LedgerConfig"
  [("retry", c.retry.inspect), ("circuit", c.circuit.inspect),
   ("lock", record "LockConfig" [("lock_timeout_ms", whole c.lock.lockTimeout)]),
   ("deadlock", record "DeadlockConfig"
     [("max_attempts", whole c.deadlock.maxAttempts),
      ("base_backoff_ms", whole c.deadlock.baseBackoff),
      ("max_backoff_ms", whole c.deadlock.maxBackoff),
      ("jitter_factor", real c.deadlock.jitterFactor)])]

end LedgerConfig

end VersionedLedger

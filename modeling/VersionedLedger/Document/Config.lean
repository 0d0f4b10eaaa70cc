import VersionedLedger.Config.Ledger
import VersionedLedger.Text.Json.Lookup

/-! Settings as JSON documents, with the names that settings files use. A document that is read need
not give all settings; the others keep the values they have. -/
namespace VersionedLedger

open Text Text.Json

namespace Jitter

def document : Jitter → Json
  | none => text "none"
  | proportional factor => members [("proportional", real factor)]

/-- A factor may also stand alone. -/
def ofDocument : Json → Jitter
  | .text "none" => .none
  | j => .proportional (j["proportional"].floatOr j.float)

end Jitter

namespace RetryConfig

def document (c : RetryConfig) : Json := members
  [("max_attempts", natural c.maxAttempts), ("base_delay_ms", natural c.baseDelay),
   ("multiplier", real c.multiplier), ("max_delay_ms", natural c.maxDelay),
   ("jitter", c.jitter.document)]

def ofDocument (c : RetryConfig) (j : Json) : RetryConfig where
  maxAttempts := j["max_attempts"].natOr c.maxAttempts
  baseDelay := j["base_delay_ms"].natOr c.baseDelay
  multiplier := j["multiplier"].floatOr c.multiplier
  maxDelay := j["max_delay_ms"].natOr c.maxDelay
  jitter := (j["jitter"].given?.map Jitter.ofDocument).getD c.jitter

end RetryConfig

namespace CircuitConfig

def document (c : CircuitConfig) : Json := members
  [("failure_rate_threshold", real c.failureRateThreshold),
   ("slow_call_rate_threshold", real c.slowCallRateThreshold),
   ("slow_call_duration_ms", natural c.slowCallDuration),
   ("minimum_calls", natural c.minimumCalls),
   ("sliding_window_size", natural c.slidingWindowSize),
   ("wait_duration_ms", natural c.waitDuration),
   ("permitted_probe_calls", natural c.permittedProbes)]

def ofDocument (c : CircuitConfig) (j : Json) : CircuitConfig where
  failureRateThreshold := j["failure_rate_threshold"].floatOr c.failureRateThreshold
  slowCallRateThreshold := j["slow_call_rate_threshold"].floatOr c.slowCallRateThreshold
  slowCallDuration := j["slow_call_duration_ms"].natOr c.slowCallDuration
  minimumCalls := j["minimum_calls"].natOr c.minimumCalls
  slidingWindowSize := j["sliding_window_size"].natOr c.slidingWindowSize
  waitDuration := j["wait_duration_ms"].natOr c.waitDuration
  permittedProbes := j["permitted_probe_calls"].natOr c.permittedProbes

end CircuitConfig

namespace LockConfig

def document (c : LockConfig) : Json := members [("lock_timeout_ms", natural c.lockTimeout)]

def ofDocument (c : LockConfig) (j : Json) : LockConfig where
  lockTimeout := j["lock_timeout_ms"].natOr c.lockTimeout

end LockConfig

namespace DeadlockConfig

def document (c : DeadlockConfig) : Json := members
  [("max_attempts", natural c.maxAttempts), ("base_backoff_ms", natural c.baseBackoff),
   ("max_backoff_ms", natural c.maxBackoff), ("jitter_factor", real c.jitterFactor)]

def ofDocument (c : DeadlockConfig) (j : Json) : DeadlockConfig where
  maxAttempts := j["max_attempts"].natOr c.maxAttempts
  baseBackoff := j["base_backoff_ms"].natOr c.baseBackoff
  maxBackoff := j["max_backoff_ms"].natOr c.maxBackoff
  jitterFactor := j["jitter_factor"].floatOr c.jitterFactor

end DeadlockConfig

namespace LedgerConfig

def document (c : LedgerConfig) : Json := members
  [("retry", c.retry.document), ("circuit", c.circuit.document), ("lock", c.lock.document),
   ("deadlock", c.deadlock.document)]

def ofDocument (c : LedgerConfig) (j : Json) : LedgerConfig where
  retry := c.retry.ofDocument j["retry"]
  circuit := c.circuit.ofDocument j["circuit"]
  lock := c.lock.ofDocument j["lock"]
  deadlock := c.deadlock.ofDocument j["deadlock"]

end LedgerConfig

end VersionedLedger

import VersionedLedger.Config.Circuit
import VersionedLedger.Config.Retry

/-! The settings of a whole ledger: retries, circuits, lock waits and the treatment of deadlocks. -/
namespace VersionedLedger

structure LockConfig where
  /-- Milliseconds to wait for each lock. -/
  lockTimeout : Nat := 5000

namespace LockConfig

def timeout (c : LockConfig) : Duration := .ofMillis c.lockTimeout

end LockConfig

structure DeadlockConfig where
  maxAttempts : Nat := 4
  /-- Milliseconds before the first retry. -/
  baseBackoff : Nat := 50
  /-- Milliseconds that no delay exceeds. -/
  maxBackoff : Nat := 1000
  jitterFactor : Float := 1.0

namespace DeadlockConfig

/-- Delays double, and the ceiling is never below the first delay. -/
def retryConfig (c : DeadlockConfig) : RetryConfig where
  maxAttempts := c.maxAttempts
  baseDelay := c.baseBackoff
  multiplier := 2.0
  maxDelay := max c.maxBackoff c.baseBackoff
  jitter := .proportional c.jitterFactor

end DeadlockConfig

structure LedgerConfig where
  retry : RetryConfig := {}
  circuit : CircuitConfig := {}
  lock : LockConfig := {}
  deadlock : DeadlockConfig := {}

namespace LedgerConfig

def validate (c : LedgerConfig) : Except Error Unit := do
  c.retry.validate
  c.circuit.validate
  c.deadlock.retryConfig.validate

end LedgerConfig

end VersionedLedger

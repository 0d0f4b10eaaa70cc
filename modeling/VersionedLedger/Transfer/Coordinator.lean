import VersionedLedger.Retry.Policy
import VersionedLedger.Transfer.Receipt

/-! Transfers that lock in the order of the request. Two of them in opposite directions may wait for
each other; the one that is picked to break the cycle is tried again, and no other error is. -/
namespace VersionedLedger

open Procedure

structure DeadlockCoordinator where
  locking : Locking
  policy : RetryPolicy

namespace DeadlockCoordinator

def ofConfig (lock : LockConfig) (deadlock : DeadlockConfig) : DeadlockCoordinator where
  locking := lock.locking
  policy := { config := deadlock.retryConfig, operation := "deadlock_transfer" }

def classify (e : Error) : Classification := if e.isDeadlock then .retryable else .fatal

variable {σ : Type}

def attempt (c : DeadlockCoordinator) (t : Transfer) : Procedure σ Receipt := do
  let answer ← outcome (t.requested c.locking)
  if let .error (.error e) := answer then
    if e.isDeadlock then perform (.countDeadlock .detected)
  ofOutcome answer

def transfer (c : DeadlockCoordinator) (t : Transfer) : Procedure σ Receipt := do
  ofError t.validate
  match ← c.policy.run { classify } (c.attempt t) with
  | .ok o =>
    perform (.countDeadlock (.succeeded o.retries))
    pure o.value
  | .error e =>
    perform (.countDeadlock (.failed e.retries))
    fail e.toError

end DeadlockCoordinator

end VersionedLedger

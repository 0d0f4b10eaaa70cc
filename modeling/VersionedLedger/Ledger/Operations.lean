import VersionedLedger.Circuit.Call
import VersionedLedger.Optimistic
import VersionedLedger.Ledger.State
import VersionedLedger.Transfer.Coordinator

/-! The operations of a ledger: updates and transfers that are retried, calls that are guarded by a
circuit, and the opening of a ledger from its settings and first balances. -/
namespace VersionedLedger

open Procedure

structure UpdateReport where
  update : Update
  attempts : Nat
  elapsed : Duration

namespace UpdateReport

def conflicts (r : UpdateReport) : Nat := r.attempts - 1

end UpdateReport

structure TransferReport where
  receipt : Receipt
  attempts : Nat
  elapsed : Duration

namespace CircuitRegistry

/-- The registry that all ledgers of a process may share; nobody listens to it. -/
def shared : CircuitRegistry := { observed := false }

end CircuitRegistry

namespace Ledger

def retryPolicy (operation : String) (retry : RetryConfig) : RetryPolicy :=
  { config := retry, operation, counted := true }

variable {σ α : Type}

def optimisticUpdate (id : RecordId) (mutate : Amount → Procedure σ Amount)
    (retry : RetryConfig) : Procedure σ UpdateReport := do
  let o ← (retryPolicy "optimistic_update" retry).attempt (Optimistic.update id mutate)
  pure ⟨o.value, o.attempts, o.elapsed⟩

def pessimisticTransfer (config : LedgerConfig) (t : Transfer) (retry : RetryConfig) :
    Procedure σ TransferReport := do
  let o ← (retryPolicy "pessimistic_transfer" retry).attempt (t.ordered config.lock.locking)
  pure ⟨o.value, o.attempts, o.elapsed⟩

def coordinator (config : LedgerConfig) : DeadlockCoordinator :=
  .ofConfig config.lock config.deadlock

def deadlockTransfer (config : LedgerConfig) (t : Transfer) : Procedure σ Receipt :=
  (coordinator config).transfer t

def circuit (config : LedgerConfig) (name : String) : Procedure σ CircuitHandle :=
  perform (.circuit name config.circuit)

/-- Runs a retry loop as one call of a circuit. A refused call makes no attempt; a crash counts as
a failure of the call and goes on. -/
def guardedCall (config : LedgerConfig) (name : String) (operation : Procedure σ α)
    (retry : RetryConfig) : Procedure σ α := do
  let h ← circuit config name
  let permit ← ofError (← perform (.admitCall h))
  let answer ← h.guardCrash permit do
    match ← (retryPolicy name retry).run {} operation with
    | .ok o => pure o.value
    | .error e => fail e.toError
  perform (.recordCall h permit (!answer.isOk))
  ofError answer

/-- A ledger over a store with these balances. The balances are entered before the settings are
looked at. -/
def create (config : LedgerConfig) (balances : List (RecordId × Amount))
    (sharedCircuits listening : Bool) : Except Error Ledger := do
  let store ← (Store.withLocks config.lock).insertAll balances
  config.validate
  pure
    { store, listening
      circuits := if sharedCircuits then .shared else { defaults := config.circuit } }

def inspect (config : LedgerConfig) (sharedCircuits : Bool) : Text.Inspected :=
  .record "Ledger"
    [("config", config.inspect), ("global_circuits", .word (toString sharedCircuits))]

end Ledger

end VersionedLedger

import VersionedLedger.Ledger.Operations
import VersionedLedger.Pool
import VersionedLedger.Scenario.Report

/-! Workers that start together and contend for one record or for two. Each run looks at the records
before and after and reports on what lies in between. -/
namespace VersionedLedger.Scenario

open Procedure

def worker {α : Type} (p : Procedure Unit α) : Program (WorkerResult α) := do
  pure (WorkerResult.ofOutcome (← p.start ()).1)

def runWorkers {α : Type} (programs : List (Program α)) (s : Ledger) : List α × Ledger :=
  let pool := Pool.finish { ledger := s, workers := programs.map .ready }
  (pool.workers.filterMap Worker.result?, pool.ledger)

def inspectStore {α : Type} (s : Ledger) (read : Procedure Unit α) : Outcome α :=
  (s.run (read.start ())).1.1

def optimisticWorker (id : RecordId) (amount : Amount) (retry : RetryConfig) :
    Program (WorkerResult Nat) :=
  worker do
    let report ← Ledger.optimisticUpdate id
      (fun balance => ofError (Account.debit balance amount)) retry
    pure report.attempts

def optimisticContention (id : RecordId) (amount : Amount) (operations : Nat)
    (retry : RetryConfig) (s : Ledger) : Outcome ContentionReport × Ledger :=
  match inspectStore s (Optimistic.read id) with
  | .error e => (.error e, s)
  | .ok initial =>
    let workers := List.replicate operations (optimisticWorker id amount retry)
    let (results, after) := runWorkers workers s
    (do let final ← inspectStore after (Optimistic.read id)
        ContentionReport.create operations amount results initial final
          (after.clock - s.clock), after)

/-- A debit under the record's lock, which is held for a while. The answer is the wait for the
lock. -/
def lockedDebit (l : Locking) (id : RecordId) (amount : Amount) (hold : Duration) :
    Procedure Unit Duration := do
  let requested ← perform .now
  l.withLocks [id] do
    let waited := (← perform .now) - requested
    let r ← Session.read id
    let balance ← ofError (Account.debit r.balance amount)
    let _ ← Session.write id r.version balance
    if hold ≠ 0 then let _ ← perform (.sleep hold false)
    pure waited

def pessimisticContention (config : LedgerConfig) (id : RecordId) (amount : Amount)
    (operations : Nat) (hold : Duration) (s : Ledger) : Outcome LockContentionReport × Ledger :=
  match inspectStore s (Optimistic.read id) with
  | .error e => (.error e, s)
  | .ok initial =>
    let workers := List.replicate operations
      (worker (lockedDebit config.lock.locking id amount hold))
    let (results, after) := runWorkers workers s
    (do let final ← inspectStore after (Optimistic.read id)
        LockContentionReport.create operations amount results initial final
          (after.clock - s.clock), after)

def totalOf (a b : RecordId) : Procedure Unit Amount := do
  let first ← Optimistic.read a
  let second ← Optimistic.read b
  ofOutcome (.ofChecked .sumOverflow (Amount.add? first.balance second.balance))

/-- What is looked at before the workers of all rounds start: the total, and whether the number of the workers
fits in a machine word. -/
def opening (a b : RecordId) (rounds : Nat) (s : Ledger) : Outcome Amount := do
  let before ← inspectStore s (totalOf a b)
  if rounds * 2 < UInt64.size then pure before else .error (.crash .productOverflow)

def opposite (a b : RecordId) (amount : Amount) (rounds : Nat) : List Transfer :=
  (List.replicate rounds [⟨a, b, amount⟩, ⟨b, a, amount⟩]).flatten

def quietCoordinator (config : LedgerConfig) (pause : Duration) : DeadlockCoordinator :=
  let own := Ledger.coordinator config
  { locking := { own.locking with pause }, policy := { own.policy with reported := false } }

def bidirectionalWorkers (config : LedgerConfig) (a b : RecordId) (amount : Amount) (rounds : Nat)
    (pause : Duration) : List (Program (WorkerResult Unit)) :=
  (opposite a b amount rounds).map fun t =>
    worker do let _ ← (quietCoordinator config pause).transfer t

/-- Opposite transfers that lock in the order of the request. They are counted apart from the
ledger's own. -/
def bidirectionalTransfers (config : LedgerConfig) (a b : RecordId) (amount : Amount)
    (rounds : Nat) (pause : Duration) (s : Ledger) : Outcome DeadlockReport × Ledger :=
  match opening a b rounds s with
  | .error e => (.error e, s)
  | .ok before =>
    let (results, after) := runWorkers (bidirectionalWorkers config a b amount rounds pause)
      { s with deadlocks := {} }
    let stats := after.deadlocks
    let after := { after with deadlocks := s.deadlocks }
    (do let total ← inspectStore after (totalOf a b)
        pure (.create results stats.deadlocksDetected stats.retries before total
          (after.clock - s.clock)), after)

def orderedTransfer (config : LedgerConfig) (l : Locking) (t : Transfer) :
    Procedure Unit (Except Error Unit × Nat) := do
  match ← (Ledger.retryPolicy "ordered_transfer" config.retry).run {} (t.ordered l) with
  | .ok o => pure (.ok (), o.retries)
  | .error e => pure (.error e.toError, e.retries)

def orderedWorkers (config : LedgerConfig) (a b : RecordId) (amount : Amount) (rounds : Nat)
    (pause : Duration) : List (Program (WorkerResult (Except Error Unit × Nat))) :=
  (opposite a b amount rounds).map fun t =>
    worker (orderedTransfer config { config.lock.locking with pause } t)

def orderedTransfers (config : LedgerConfig) (a b : RecordId) (amount : Amount)
    (rounds : Nat) (pause : Duration) (s : Ledger) : Outcome DeadlockReport × Ledger :=
  match opening a b rounds s with
  | .error e => (.error e, s)
  | .ok before =>
    let (ends, after) := runWorkers (orderedWorkers config a b amount rounds pause) s
    let results : List (WorkerResult Unit) := ends.map fun r => r.bind (·.1)
    let retries := sumOver (fun r => (r.toOption.map (·.2)).getD 0) ends
    let deadlocks := results.countP WorkerResult.isDeadlock
    (do let total ← inspectStore after (totalOf a b)
        pure (.create results deadlocks retries before total (after.clock - s.clock)), after)

end VersionedLedger.Scenario

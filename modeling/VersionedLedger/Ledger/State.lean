import VersionedLedger.Program
import VersionedLedger.Retry.Backoff
import VersionedLedger.Retry.Metrics

/-! A ledger at one moment: its store, its circuits, its counters, its journal and its clock, and
the answer that it gives to each call. Time passes only in sleeps, lock waits and the latency of
faults, and by one tick when a circuit is asked for a permit or told of an outcome, so that no call
takes no time at all. -/
namespace VersionedLedger

structure Cancellation where
  requested : Bool := false
  due : Option Time := none

namespace Cancellation

def isRequested (c : Cancellation) (now : Time) : Bool :=
  c.requested || c.due.any fun t => t ≤ now

def interrupt (c : Cancellation) (now deadline : Time) : Bool × Time :=
  if c.isRequested now then (true, now)
  else match c.due with
    | some t => if t ≤ deadline then (true, t) else (false, deadline)
    | none => (false, deadline)

end Cancellation

structure Ledger where
  store : Store := {}
  circuits : CircuitRegistry := {}
  retries : RetryMetrics := {}
  deadlocks : DeadlockStats := {}
  listening : Bool := true
  journal : List Event := []
  clock : Time := 0
  seed : Nat := 0
  cancellation : Cancellation := {}

namespace Ledger

def report (s : Ledger) (events : List Event) : Ledger :=
  if s.listening then { s with journal := s.journal ++ events } else s

def takeJournal (s : Ledger) : List Event × Ledger := (s.journal, { s with journal := [] })

def elapse (s : Ledger) (d : Duration) : Ledger := { s with clock := s.clock + d }

/-- One step of a linear congruential generator on 64-bit words; its high bits are the number. -/
def draw (s : Ledger) : Nat × Ledger :=
  let seed := (6364136223846793005 * s.seed + 1442695040888963407) % UInt64.size
  (seed >>> 11, { s with seed })

def checkFault (s : Ledger) (operation : String) : Except Error Unit × Ledger :=
  let (number, s) := (s.elapse s.store.faults.latency).draw
  let (answer, faults) := s.store.faults.check (number % Faults.million) operation
  (answer, { s with store := { s.store with faults } })

def isCancelled (s : Ledger) : Bool := s.cancellation.isRequested s.clock

def sleepEnd (s : Ledger) (d : Duration) (watched : Bool) : Bool × Time :=
  if watched then
    let (cut, time) := s.cancellation.interrupt s.clock (s.clock + d)
    (!cut, time)
  else (true, s.clock + d)

def onStore {α : Type} (s : Ledger) (f : Store → α × Store) : α × Ledger :=
  let (answer, store) := f s.store
  (answer, { s with store })

def onLocks (s : Ledger) (f : LockManager → LockManager) : Ledger :=
  { s with store := { s.store with locks := f s.store.locks } }

def onBreaker {α : Type} (s : Ledger) (h : CircuitHandle)
    (act : Breaker → Time → α × Breaker × List Event) : α × Ledger :=
  let s := s.elapse 1
  let (answer, b, events) := act (s.circuits.breaker h) s.clock
  let s := { s with circuits := s.circuits.set h b }
  (answer, if s.circuits.observed then s.report events else s)

def requestLock (s : Ledger) (owner : TxnId) (id : RecordId) (first : Bool) :
    LockRound × Ledger :=
  let (round, locks) := s.store.locks.request owner id first
  (round, { s with store := { s.store with locks } })

def lockBound (s : Ledger) (timeout : Option Duration) : Duration :=
  timeout.getD s.store.autocommitTimeout

/-- A lock request of a program that runs alone: nobody else frees the lock, so a request that has
to wait gives up in the end. -/
def acquire (s : Ledger) (owner : TxnId) (id : RecordId) (timeout : Option Duration)
    (existing : Bool) : Outcome Unit × Ledger :=
  if existing && !s.store.contains id then (.error (.error (.notFound id)), s)
  else match s.requestLock owner id true with
    | (.granted, s) | (.held, s) => (.ok (), s)
    | (.deadlock, s) => (.error (.error (.deadlock id)), s)
    | (.waiting, s) =>
      let bound := s.lockBound timeout
      (.error (.error (.lockTimeout id bound.toMillis)),
        (s.elapse bound).onLocks (·.giveUp owner))

def answer : (c : Call) → Ledger → c.Reply × Ledger
  | .lookup id, s => (s.store.records[id]?, s)
  | .begin, s => s.onStore Store.allocate
  | .checkFault operation, s => s.checkFault operation
  | .acquire owner id timeout existing, s => s.acquire owner id timeout existing
  | .release owner id, s => ((), s.onLocks (·.release owner id))
  | .releaseAll owner ids, s => ((), s.onLocks (·.releaseAll owner ids))
  | .install id expected balance, s => s.onStore (·.install id expected balance)
  | .apply writes, s => s.onStore (·.apply writes)
  | .countAbort, s => ((), { s with store := { s.store with aborts := s.store.aborts + 1 } })
  | .setFaults setting, s => ((), { s with store := s.store.setFaults setting })
  | .circuit name config, s =>
    let ((h, _), circuits) := s.circuits.breakerWith name config
    (h, { s with circuits })
  | .admitCall h, s => s.onBreaker h Breaker.tryAcquire
  | .recordCall h p failed, s => s.onBreaker h fun b now => ((), b.record p failed now)
  | .circuitState h, s => ((s.circuits.breaker h).state, s)
  | .circuitMetrics h, s => ((s.circuits.breaker h).metrics, s)
  | .sleep d watched, s =>
    let (completed, time) := s.sleepEnd d watched
    (completed, { s with clock := time })
  | .now, s => (s.clock, s)
  | .draw, s => s.draw
  | .isCancelled, s => (s.isCancelled, s)
  | .cancel, s => ((), { s with cancellation := { s.cancellation with requested := true } })
  | .report e, s => ((), s.report [e])
  | .tally summary, s => ((), { s with retries := s.retries.record summary })
  | .countDeadlock c, s => ((), { s with deadlocks := s.deadlocks.count c })

def run {α : Type} (s : Ledger) (p : Program α) : α × Ledger := p.runWith answer s

end Ledger

end VersionedLedger

import VersionedLedger.Circuit.Breaker
import VersionedLedger.Record
import VersionedLedger.Time

/-! What is reported about a run: how many of its operations succeeded, and whether the balances
account for exactly those. -/
namespace VersionedLedger

abbrev WorkerResult (α : Type) := Except Error α

namespace WorkerResult

def ofOutcome {α : Type} : Outcome α → WorkerResult α
  | .ok a => .ok a
  | .error (.error e) => .error e
  | .error (.crash _) => .error (.internal "worker panicked")

def isDeadlock {α : Type} : WorkerResult α → Bool
  | .error e => e.rootCause.isDeadlock
  | .ok _ => false

end WorkerResult

def sumOver {α : Type} (f : α → Nat) (xs : List α) : Nat := xs.foldr (fun x n => f x + n) 0

/-- A sum that is kept in a 32-bit word. -/
def sumWord {α : Type} (f : α → Nat) (xs : List α) : Outcome Nat :=
  xs.foldlM (fun n x => Outcome.ofChecked .sumOverflow (word? (n + f x))) 0
where
  word? (n : Nat) : Option Nat := if n < UInt32.size then some n else none

theorem sumWord_eq {α : Type} (f : α → Nat) (xs : List α) : sumWord f xs =
    if sumOver f xs < UInt32.size then .ok (sumOver f xs) else .error (.crash .sumOverflow) := by
  have from_word (n : Nat) (fits : n < UInt32.size) :
      xs.foldlM (fun n x => Outcome.ofChecked .sumOverflow (sumWord.word? (n + f x))) n =
        if n + sumOver f xs < UInt32.size then .ok (n + sumOver f xs) else .error (.crash .sumOverflow) := by
    induction xs generalizing n with
    | nil => exact (if_pos fits).symm
    | cons x xs ih =>
      rw [List.foldlM_cons,sumWord.word?]
      by_cases next : n + f x < UInt32.size
      · rw [if_pos next]
        exact (ih (n + f x) next).trans (by rw [Nat.add_assoc]; rfl)
      · -- the terms that follow do not bring the sum back into the word
        rw [if_neg next,if_neg]
        · rfl
        · exact fun later => next (Nat.lt_of_le_of_lt (Nat.add_le_add_left (Nat.le_add_right _ _) n) later)
  have whole := from_word 0 (by decide)
  rwa [Nat.zero_add] at whole

structure ContentionReport where
  operations : Nat
  successes : Nat
  failures : Nat
  retries : Nat
  averageRetries : Float
  conflicts : Nat
  conflictRate : Float
  initialBalance : Amount
  finalBalance : Amount
  expectedBalance : Amount
  initialVersion : Version
  finalVersion : Version
  /-- Every success is in the balance and in the version exactly once. -/
  balanceCorrect : Bool
  duration : Nat

namespace ContentionReport

def attemptsOf : Error → Nat
  | .attemptsExhausted n _ _ => n
  | _ => 1

def retriesOf : WorkerResult Nat → Nat
  | .ok attempts => attempts - 1
  | .error e => attemptsOf e - 1

def conflictsOf : WorkerResult Nat → Nat
  | .ok attempts => attempts - 1
  | .error e => if e.rootCause.isConflict then attemptsOf e else 0

def perOperation (operations n : Nat) : Float :=
  if operations = 0 then 0.0 else n.toUInt64.toFloat / operations.toUInt64.toFloat

end ContentionReport

def balanceAfter (initial amount : Amount) (times : Nat) : Outcome Amount := do
  let taken ← Outcome.ofChecked .productOverflow (Amount.mul? amount (Int64.ofNat times))
  Outcome.ofChecked .differenceOverflow (Amount.sub? initial taken)

namespace ContentionReport

def create (operations : Nat) (amount : Amount) (results : List (WorkerResult Nat))
    (initial final : Record) (elapsed : Duration) : Outcome ContentionReport := do
  let successes := results.countP Except.isOk
  let retries ← sumWord retriesOf results
  let conflicts ← sumWord conflictsOf results
  let expected ← balanceAfter initial.balance amount successes
  pure
    { operations, successes
      failures := operations - successes
      retries
      averageRetries := perOperation operations retries
      conflicts
      conflictRate := perOperation operations conflicts
      initialBalance := initial.balance
      finalBalance := final.balance
      expectedBalance := expected
      initialVersion := initial.version
      finalVersion := final.version
      balanceCorrect := final.balance = expected && final.version = initial.version + successes
      duration := elapsed.toMillis }

end ContentionReport

structure LockContentionReport where
  operations : Nat
  successes : Nat
  failures : Nat
  /-- Milliseconds, over the operations that succeeded; they have all been waited for, so they fit in 64 bits. -/
  totalLockWait : Nat
  averageLockWait : Float
  maxLockWait : Nat
  operationsPerSecond : Float
  initialBalance : Amount
  finalBalance : Amount
  expectedBalance : Amount
  balanceCorrect : Bool
  duration : Nat

namespace LockContentionReport

def create (operations : Nat) (amount : Amount) (results : List (WorkerResult Duration))
    (initial final : Record) (elapsed : Duration) : Outcome LockContentionReport := do
  let waits := results.filterMap fun r => r.toOption.map Duration.toMillis
  let expected ← balanceAfter initial.balance amount waits.length
  let totalWait := sumOver id waits
  let real (n : Nat) := n.toUInt64.toFloat
  pure
    { operations
      successes := waits.length
      failures := operations - waits.length
      totalLockWait := totalWait
      averageLockWait := if waits.isEmpty then 0.0 else real totalWait / real waits.length
      maxLockWait := waits.foldl max 0
      operationsPerSecond :=
        if elapsed = 0 then 0.0 else real waits.length / (real elapsed / 1000000000.0)
      initialBalance := initial.balance
      finalBalance := final.balance
      expectedBalance := expected
      balanceCorrect := final.balance = expected
      duration := elapsed.toMillis }

end LockContentionReport

structure DeadlockReport where
  transfers : Nat
  deadlocksDetected : Nat
  retries : Nat
  successes : Nat
  failures : Nat
  totalBefore : Amount
  totalAfter : Amount
  balanceConserved : Bool
  duration : Nat

namespace DeadlockReport

def create (results : List (WorkerResult Unit)) (deadlocks retries : Nat)
    (before after : Amount) (elapsed : Duration) : DeadlockReport :=
  let successes := results.countP Except.isOk
  { transfers := results.length
    deadlocksDetected := deadlocks
    retries, successes
    failures := results.length - successes
    totalBefore := before
    totalAfter := after
    balanceConserved := before = after
    duration := elapsed.toMillis }

end DeadlockReport

structure BreakerCall where
  index : Nat
  injectedFailure : Bool
  stateBefore : CircuitState
  stateAfter : CircuitState
  succeeded : Bool
  rejected : Bool
  error : Option String
  deriving DecidableEq, Repr

structure BreakerReport where
  calls : List BreakerCall
  metrics : CircuitMetrics

namespace BreakerReport

def addState (states : List CircuitState) (s : CircuitState) : List CircuitState :=
  if states.getLast? = some s then states else states ++ [s]

def states (r : BreakerReport) : List CircuitState :=
  (r.calls.flatMap fun c => [c.stateBefore, c.stateAfter]).foldl addState []

end BreakerReport

structure RetryReport where
  injectedFailures : Nat
  succeeded : Bool
  attempts : Nat
  error : Option String
  duration : Nat

end VersionedLedger

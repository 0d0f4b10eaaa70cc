import VersionedLedger.Amount
import VersionedLedger.Circuit.State

/-! What can go wrong. An `Error` is an answer of the ledger: it is classified, reported and perhaps
retried. A `Crash` stops the caller instead, and no layer retries it. -/
namespace VersionedLedger

abbrev RecordId := Nat

abbrev TxnId := Nat

namespace RecordId

def text (id : RecordId) : String := s!"#{id}"

end RecordId

namespace TxnId

def text (id : TxnId) : String := s!"txn-{id}"

end TxnId

inductive Error
  | notFound (id : RecordId)
  | versionConflict (id : RecordId) (expected actual : Version)
  /-- The wait is given in milliseconds. -/
  | lockTimeout (id : RecordId) (waited : Nat)
  /-- The request for this record would have closed a cycle of waiting owners. -/
  | deadlock (id : RecordId)
  | unavailable (reason : String)
  | circuitOpen (operation : String) (state : CircuitState)
  | validation (reason : String)
  | attemptsExhausted (attempts : Nat) (fallbackUsed : Bool) (source : Error)
  | cancelled (attempts : Nat)
  | aborted (reason : String)
  | config (reason : String)
  | internal (reason : String)
  deriving DecidableEq, Repr

inductive Classification
  | retryable
  | fatal
  deriving DecidableEq, Repr

namespace Error

def message : Error → String
  | notFound id => s!"record {id.text} not found"
  | versionConflict id expected actual =>
    s!"version conflict on record {id.text}: expected version {expected}, found {actual}"
  | lockTimeout id waited => s!"timed out after {waited}ms waiting for lock on record {id.text}"
  | deadlock id => s!"deadlock detected while locking record {id.text}"
  | unavailable reason => s!"store unavailable: {reason}"
  | circuitOpen operation state => s!"circuit '{operation}' is {state.name}; call not permitted"
  | validation reason => s!"validation failed: {reason}"
  | attemptsExhausted attempts fallbackUsed source =>
    s!"gave up after {attempts} attempts (fallback used: {fallbackUsed}): {source.message}"
  | cancelled attempts => s!"operation cancelled after {attempts} attempts"
  | aborted reason => s!"transaction aborted: {reason}"
  | config reason => s!"configuration error: {reason}"
  | internal reason => s!"internal error: {reason}"

def kind : Error → String
  | notFound _ => "not_found"
  | versionConflict .. => "version_conflict"
  | lockTimeout .. => "lock_timeout"
  | deadlock _ => "deadlock_detected"
  | unavailable _ => "unavailable"
  | circuitOpen .. => "circuit_open"
  | validation _ => "validation"
  | attemptsExhausted .. => "attempts_exhausted"
  | cancelled _ => "cancelled"
  | aborted _ => "aborted"
  | config _ => "config"
  | internal _ => "internal"

def classification : Error → Classification
  | versionConflict .. | lockTimeout .. | deadlock _ | unavailable _ => .retryable
  | _ => .fatal

def isConflict : Error → Bool
  | versionConflict .. => true
  | _ => false

def isDeadlock : Error → Bool
  | deadlock _ => true
  | _ => false

def isLockTimeout : Error → Bool
  | lockTimeout .. => true
  | _ => false

def isCircuitOpen : Error → Bool
  | circuitOpen .. => true
  | _ => false

def isValidation : Error → Bool
  | validation _ => true
  | _ => false

def isNotFound : Error → Bool
  | notFound _ => true
  | _ => false

def isExhausted : Error → Bool
  | attemptsExhausted .. => true
  | _ => false

def rootCause : Error → Error
  | attemptsExhausted _ _ source => source.rootCause
  | other => other

/-- What each exhausted layer gave up on, outermost first. -/
def sources : Error → List Error
  | attemptsExhausted _ _ source => source :: source.sources
  | _ => []

/-- Reads a five-character SQLSTATE reported for a request on `id`. Unknown codes of the classes
08 (connection) and 57 (operator intervention) are transient, all others are defects. -/
def ofSqlState (code : String) (id : RecordId) (waited : Nat) : Error :=
  if code == "40P01" then deadlock id
  else if code == "55P03" || code == "57014" then lockTimeout id waited
  else if code == "40001" then versionConflict id 0 0
  else if code.startsWith "08" || code.startsWith "57" then unavailable s!"sqlstate {code}"
  else internal s!"unexpected sqlstate {code}"

theorem isExhausted_rootCause (e : Error) : e.rootCause.isExhausted = false := by
  induction e <;> simp_all [rootCause, isExhausted]

end Error

inductive Crash
  | sumOverflow
  | differenceOverflow
  | productOverflow
  | raised (text : String)
  deriving DecidableEq, Repr

namespace Crash

def message : Crash → String
  | sumOverflow => "attempt to add with overflow"
  | differenceOverflow => "attempt to subtract with overflow"
  | productOverflow => "attempt to multiply with overflow"
  | raised text => text

end Crash

inductive Failure
  | error (e : Error)
  | crash (c : Crash)
  deriving DecidableEq, Repr

abbrev Outcome (α : Type) := Except Failure α

namespace Outcome

def ofError {α : Type} : Except Error α → Outcome α
  | .ok a => .ok a
  | .error e => .error (.error e)

def ofChecked {α : Type} (c : Crash) : Option α → Outcome α
  | some a => .ok a
  | none => .error (.crash c)

end Outcome

end VersionedLedger

import VersionedLedger.Config.Ledger
import VersionedLedger.Toml.Document

/-! Settings read from a file. A section or setting that is not given keeps its default and one that
is not known is passed over. A section may also list its settings in order, without their names. -/
namespace VersionedLedger

open Toml

inductive ConfigFault
  /-- The file is not well formed, or a setting has a value of another type. -/
  | malformed
  | unreadable (path reason : String)
  | invalid (e : Error)

namespace Config

/-- The value of a setting in its section; a point in time is a section without settings. -/
def setting? (position : Nat) (name : String) : Value → Option (Option Value)
  | .table members => some (members.lookup name)
  | .list items => some items[position]?
  | .moment => some none
  | _ => none

def readOr {α : Type} (s : Value) (position : Nat) (name : String) (fallback : α)
    (read : Value → Option α) : Option α :=
  match setting? position name s with
  | none => none
  | some none => some fallback
  | some (some v) => read v

def below (bound : Nat) : Value → Option Nat
  | .whole n => if 0 ≤ n && n < bound then some n.toNat else none
  | _ => none

def small : Value → Option Nat := below UInt32.size

def large : Value → Option Nat := below UInt64.size

def real : Value → Option Float
  | .real x => some x
  | .whole n => some (if n < 0 then -n.natAbs.toUInt64.toFloat else n.natAbs.toUInt64.toFloat)
  | _ => none

def isEmpty : Value → Bool
  | .table members => members.isEmpty
  | .list items => items.isEmpty
  | _ => false

def jitter : Value → Option Jitter
  | .text "none" => some .none
  | .table [("none", v)] => if isEmpty v then some .none else none
  | .table [("proportional", v)] => (real v).map .proportional
  | _ => none

def retry (s : Value) : Option RetryConfig := do
  let d : RetryConfig := {}
  pure
    { maxAttempts := ← readOr s 0 "max_attempts" d.maxAttempts small
      baseDelay := ← readOr s 1 "base_delay_ms" d.baseDelay large
      multiplier := ← readOr s 2 "multiplier" d.multiplier real
      maxDelay := ← readOr s 3 "max_delay_ms" d.maxDelay large
      jitter := ← readOr s 4 "jitter" d.jitter jitter }

def circuit (s : Value) : Option CircuitConfig := do
  let d : CircuitConfig := {}
  pure
    { failureRateThreshold := ← readOr s 0 "failure_rate_threshold" d.failureRateThreshold real
      slowCallRateThreshold := ← readOr s 1 "slow_call_rate_threshold" d.slowCallRateThreshold real
      slowCallDuration := ← readOr s 2 "slow_call_duration_ms" d.slowCallDuration large
      minimumCalls := ← readOr s 3 "minimum_calls" d.minimumCalls large
      slidingWindowSize := ← readOr s 4 "sliding_window_size" d.slidingWindowSize large
      waitDuration := ← readOr s 5 "wait_duration_ms" d.waitDuration large
      permittedProbes := ← readOr s 6 "permitted_probe_calls" d.permittedProbes small }

def lock (s : Value) : Option LockConfig := do
  let d : LockConfig := {}
  pure { lockTimeout := ← readOr s 0 "lock_timeout_ms" d.lockTimeout large }

def deadlock (s : Value) : Option DeadlockConfig := do
  let d : DeadlockConfig := {}
  pure
    { maxAttempts := ← readOr s 0 "max_attempts" d.maxAttempts small
      baseBackoff := ← readOr s 1 "base_backoff_ms" d.baseBackoff large
      maxBackoff := ← readOr s 2 "max_backoff_ms" d.maxBackoff large
      jitterFactor := ← readOr s 3 "jitter_factor" d.jitterFactor real }

def ledger (s : Value) : Option LedgerConfig := do
  pure
    { retry := ← readOr s 0 "retry" {} retry
      circuit := ← readOr s 1 "circuit" {} circuit
      lock := ← readOr s 2 "lock" {} lock
      deadlock := ← readOr s 3 "deadlock" {} deadlock }

end Config

namespace LedgerConfig

def parse (content : String) : Except ConfigFault LedgerConfig := do
  let some members := Toml.parse? content | throw .malformed
  let some config := Config.ledger (.table members) | throw .malformed
  match config.validate with
  | .ok () => pure config
  | .error e => throw (.invalid e)

def ofFile (path : String) (content : Except String ByteArray) :
    Except ConfigFault LedgerConfig := do
  match content with
  | .error reason => throw (.unreadable path reason)
  | .ok bytes =>
    match String.fromUTF8? bytes with
    | some text => parse text
    | none => throw (.unreadable path "stream did not contain valid UTF-8")

end LedgerConfig

namespace ConfigFault

def error? : ConfigFault → Option Error
  | malformed => none
  | unreadable path reason => some (.config s!"cannot read {path}: {reason}")
  | invalid e => some e

end ConfigFault

end VersionedLedger

import VersionedLedger.Ledger.Operations
import VersionedLedger.Scenario.Report

/-! Transfers on a store that is made to fail: one guarded call for each entry of a pattern, or one
retried call after a number of failures. No injected failure is left over at the end. -/
namespace VersionedLedger.Scenario

open Procedure

variable {σ : Type}

def setFaults (setting : FaultSetting) : Procedure σ Unit := perform (.setFaults setting)

/-- One guarded transfer, which fails at commit if `failure` says so. -/
def flakyCall (config : LedgerConfig) (name : String) (h : CircuitHandle) (t : Transfer)
    (index : Nat) (failure : Bool) : Procedure σ BreakerCall := do
  setFaults .clear
  if failure then setFaults (.failNext 1)
  let stateBefore ← perform (.circuitState h)
  let answer ← outcome (Ledger.guardedCall config name (t.ordered config.lock.locking) .noRetry)
  let error ← match answer with
    | .ok _ => pure none
    | .error (.error e) => pure (some e)
    | .error (.crash c) => crash c
  pure
    { index
      injectedFailure := failure
      stateBefore
      stateAfter := ← perform (.circuitState h)
      succeeded := error.isNone
      rejected := error.any Error.isCircuitOpen
      error := error.map Error.message }

def flakyCalls (config : LedgerConfig) (name : String) (h : CircuitHandle) (t : Transfer) :
    (index : Nat) → List Bool → Procedure σ (List BreakerCall)
  | _, [] => pure []
  | index, failure :: rest => do
    let call ← flakyCall config name h t index failure
    pure (call :: (← flakyCalls config name h t (index + 1) rest))

/-- One guarded transfer for each entry of the pattern, none of them retried. -/
def flakyTransfers (config : LedgerConfig) (name : String) (t : Transfer)
    (pattern : List Bool) : Procedure σ BreakerReport := do
  let h ← Ledger.circuit config name
  let calls ← flakyCalls config name h t 0 pattern
  setFaults .clear
  pure { calls, metrics := ← perform (.circuitMetrics h) }

def flakyRetries (config : LedgerConfig) (t : Transfer) (failures : Nat) (retry : RetryConfig) :
    Procedure σ RetryReport := do
  setFaults .clear
  setFaults (.failNext failures)
  let started ← perform .now
  let policy := Ledger.retryPolicy "flaky_transfer" retry
  let answer ← policy.run {} (t.ordered config.lock.locking)
  let elapsed : Duration := (← perform .now) - started
  setFaults .clear
  match answer with
  | .ok o => pure ⟨failures, true, o.attempts, none, elapsed.toMillis⟩
  | .error e => pure ⟨failures, false, e.attempts, some e.toError.message, elapsed.toMillis⟩

/-- A run of a pattern; if it leaves the circuit open and recovery is asked for, the wait of the
circuit and as many successful calls as it admits probes. -/
def breakerRun (config : LedgerConfig) (name : String) (t : Transfer) (pattern : List Bool)
    (recover : Bool) : Procedure σ (BreakerReport × Option BreakerReport) := do
  let first ← flakyTransfers config name t pattern
  if recover && first.metrics.state = .opened then
    let _ ← perform (.sleep config.circuit.openFor false)
    let probes := List.replicate config.circuit.permittedProbes false
    pure (first, some (← flakyTransfers config name t probes))
  else pure (first, none)

end VersionedLedger.Scenario

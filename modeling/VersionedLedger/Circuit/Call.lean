import VersionedLedger.Procedure

/-! Running work as a call of a circuit: a permit is asked for first, and one outcome is recorded
for it afterwards, a failure if the work crashes. -/
namespace VersionedLedger.CircuitHandle

open Procedure

variable {σ α : Type}

/-- Runs work under a permit and records its crash. Any other end is the caller's to record. -/
def guardCrash (h : CircuitHandle) (permit : Permit) (work : Procedure σ α) :
    Procedure σ (Except Error α) := do
  match ← outcome work with
  | .ok a => pure (.ok a)
  | .error (.error e) => pure (.error e)
  | .error (.crash c) =>
    perform (.recordCall h permit true)
    crash c

/-- Runs work as one call; `counts` says which errors are failures of the call. -/
def call (h : CircuitHandle) (counts : Error → Bool) (work : Procedure σ α) : Procedure σ α := do
  let permit ← ofError (← perform (.admitCall h))
  let answer ← h.guardCrash permit work
  let failed := match answer with
    | .ok _ => false
    | .error e => counts e
  perform (.recordCall h permit failed)
  ofError answer

end VersionedLedger.CircuitHandle

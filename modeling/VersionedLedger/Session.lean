import VersionedLedger.Procedure

/-! The calls of one transaction. Reads and writes work on its staged view, locks are noted as they
are granted, and commit and abort give every noted lock back. -/
namespace VersionedLedger

open Procedure

abbrev Session (α : Type) := Procedure Transaction α

namespace Session

def ensureActive : Session Unit := do ofError (← get).ensureActive

def read (id : RecordId) : Session Record := do
  ensureActive
  match ← perform (.lookup id) with
  | some stored => ofOutcome ((← get).view stored)
  | none => fail (.notFound id)

def write (id : RecordId) (expected : Version) (balance : Amount) : Session Record := do
  let seen ← read id
  let (answer, t) := (← get).stage seen expected balance
  set t
  ofOutcome answer

def lock (id : RecordId) (timeout : Duration) : Session Unit := do
  ensureActive
  ofOutcome (← perform (.acquire (← get).id id (some timeout) true))
  modify (·.noteAcquired id)

def releaseHeld : Session Unit := do
  let (held, t) := (← get).takeHeld
  set t
  perform (.releaseAll t.id held)

/-- Discards the staged writes; on a finished transaction it only gives locks back. -/
def abort (reason : String) : Session Unit := do
  if (← get).isActive then
    modify (·.markAborted reason)
    perform .countAbort
  releaseHeld

/-- Validates and applies the staged writes. A commit that cannot apply them aborts. -/
def commit : Session Unit := do
  let t ← get
  match t.ensureActive with
  | .error e =>
    releaseHeld
    fail e
  | .ok () =>
    if t.isReadOnly then
      modify Transaction.markCommitted
      releaseHeld
    else
      match ← perform (.checkFault "commit") with
      | .error e =>
        abort e.message
        fail e
      | .ok () =>
        match ← perform (.apply t.writes) with
        | .error e =>
          abort e.message
          fail e
        | .ok () =>
          modify Transaction.markCommitted
          releaseHeld

def conclude {α : Type} : Outcome α → Session α
  | .ok a => do
    commit
    pure a
  | .error (.error e) => do
    abort e.message
    fail e
  | .error (.crash c) => do
    if (← get).isActive then abort "transaction scope unwound"
    crash c

end Session

namespace Procedure

/-- Runs a body in a transaction of its own and concludes it on every path. -/
def withTransaction {σ α : Type} (body : Session α) : Procedure σ α := do
  let id ← perform .begin
  let (answer, _) ← within (Transaction.start id) (body.outcome >>= Session.conclude)
  ofOutcome answer

end Procedure

end VersionedLedger

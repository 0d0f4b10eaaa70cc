import VersionedLedger.Account
import VersionedLedger.Session

/-! Work under several locks. Locks are asked for one at a time, either in ascending order, in which
case no cycle of waiting owners can form, or in the order of the request. -/
namespace VersionedLedger

open Procedure

structure Locking where
  timeout : Duration
  pause : Duration := 0

namespace Locking

def insertAscending (id : RecordId) : List RecordId → List RecordId
  | [] => [id]
  | first :: rest =>
    if id < first then id :: first :: rest
    else if id = first then first :: rest
    else first :: insertAscending id rest

def ascending (ids : List RecordId) : List RecordId := ids.foldr insertAscending []

def requestOrder (ids : List RecordId) : List RecordId := ids.eraseDups

def releasePartial : Session Unit := do
  let (held, t) := (← get).takeHeld
  set t
  for id in held do
    perform (.release t.id id)

/-- Asks for one lock, and lets go of the others if it is refused. -/
def acquire (l : Locking) (id : RecordId) : Session Unit := do
  match ← outcome (Session.lock id l.timeout) with
  | .ok () => pure ()
  | .error (.error e) =>
    releasePartial
    fail e
  | .error (.crash c) => crash c

def acquireRest (l : Locking) : List RecordId → Session Unit
  | [] => pure ()
  | id :: rest => do
    if l.pause ≠ 0 then let _ ← perform (.sleep l.pause false)
    l.acquire id
    l.acquireRest rest

def acquireAll (l : Locking) : List RecordId → Session Unit
  | [] => pure ()
  | id :: rest => do
    l.acquire id
    l.acquireRest rest

variable {σ α : Type}

def run (l : Locking) (ids : List RecordId) (body : Session α) : Procedure σ α :=
  withTransaction do
    l.acquireAll ids
    body

def withLocks (l : Locking) (ids : List RecordId) (body : Session α) : Procedure σ α :=
  l.run (ascending ids) body

/-- Whoever locks in this order must expect to be picked to break a cycle. -/
def withLocksInRequestOrder (l : Locking) (ids : List RecordId) (body : Session α) :
    Procedure σ α :=
  l.run (requestOrder ids) body

end Locking

namespace LockConfig

def locking (c : LockConfig) : Locking := { timeout := c.timeout }

end LockConfig

end VersionedLedger

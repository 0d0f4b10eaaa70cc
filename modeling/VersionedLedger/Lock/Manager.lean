import VersionedLedger.Lock.Table

/-! Exclusive locks with a bounded wait. A request is decided in rounds: each round grants the
lock, refuses it because waiting would close a cycle, or leaves the owner waiting; a wait ends with
another round or by giving up. -/
namespace VersionedLedger

/-- Each request adds at most one to a count, so no run comes near the end of a 64-bit word. -/
structure LockStats where
  acquired : Nat := 0
  waits : Nat := 0
  timeouts : Nat := 0
  deadlocks : Nat := 0
  deriving DecidableEq, Repr

structure LockManager where
  table : LockTable := {}
  stats : LockStats := {}

inductive LockRound
  | granted
  | held
  | deadlock
  | waiting
  deriving DecidableEq, Repr

namespace LockManager

/-- One round of the request. The first round that waits is counted. -/
def request (m : LockManager) (owner : TxnId) (id : RecordId) (first : Bool) :
    LockRound × LockManager :=
  match m.table.owners[id]? with
  | none =>
    (.granted, { table := m.table.grant owner id
                 stats := { m.stats with acquired := m.stats.acquired + 1 } })
  | some holder =>
    if holder = owner then (.held, { m with table := m.table.stopWaiting owner })
    else
      let waiting := m.table.wait owner holder
      if waiting.closesCycle owner then
        (.deadlock, { table := waiting.stopWaiting owner
                      stats := { m.stats with deadlocks := m.stats.deadlocks + 1 } })
      else
        (.waiting, { table := waiting
                     stats := { m.stats with waits := m.stats.waits + if first then 1 else 0 } })

def giveUp (m : LockManager) (owner : TxnId) : LockManager where
  table := m.table.stopWaiting owner
  stats := { m.stats with timeouts := m.stats.timeouts + 1 }

def release (m : LockManager) (owner : TxnId) (id : RecordId) : LockManager :=
  { m with table := m.table.release owner id }

def releaseAll (m : LockManager) (owner : TxnId) (ids : List RecordId) : LockManager :=
  { m with table := m.table.releaseAll owner ids }

def heldCount (m : LockManager) : Nat := m.table.owners.size

end LockManager

end VersionedLedger

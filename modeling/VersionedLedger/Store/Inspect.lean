import VersionedLedger.Store.State
import VersionedLedger.Text.Inspect

/-! A store as shown to a developer: sizes and counters, no contents. -/
namespace VersionedLedger

open Text Text.Inspected

namespace LockStats

def inspect (s : LockStats) : Inspected := record "LockStats"
  [("acquired", whole s.acquired), ("waits", whole s.waits), ("timeouts", whole s.timeouts),
   ("deadlocks", whole s.deadlocks)]

end LockStats

namespace Store

def inspect (s : Store) : Inspected := record "InMemoryStore"
  [("records", whole s.records.size), ("locks_held", whole s.locks.heldCount),
   ("stats", record "StoreStats"
     [("commits", whole s.commits), ("aborts", whole s.aborts), ("conflicts", whole s.conflicts),
      ("locks", s.locks.stats.inspect)])]

end Store

end VersionedLedger

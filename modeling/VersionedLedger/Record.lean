import VersionedLedger.Failure

/-! A stored balance with its version stamp. A record starts at version 0 and every successful
write raises the version by one. -/
namespace VersionedLedger

structure Record where
  id : RecordId
  balance : Amount
  version : Version
  deriving DecidableEq, Repr

namespace Record

def fresh (id : RecordId) (balance : Amount) : Record := ⟨id, balance, 0⟩

def next (r : Record) (balance : Amount) : Outcome Record := do
  let version ← Outcome.ofChecked .sumOverflow (Version.add? r.version 1)
  pure { r with balance, version }

end Record

structure Update where
  before : Record
  after : Record
  deriving DecidableEq, Repr

namespace Update

def delta (u : Update) : Outcome Amount :=
  Outcome.ofChecked .differenceOverflow (Amount.sub? u.after.balance u.before.balance)

end Update

end VersionedLedger

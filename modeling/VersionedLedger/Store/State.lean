import VersionedLedger.Config.Ledger
import VersionedLedger.Faults
import VersionedLedger.Lock.Manager
import VersionedLedger.Transaction

/-! The contents of a store of versioned records, and the steps that change them at once: reading,
inserting, a single conditional write, and the validation and application of a write set. The counts of commits, aborts
and conflicts have no upper end; a run would take centuries to fill a word of 64 bits one by one. -/
namespace VersionedLedger

structure Store where
  records : Std.TreeMap RecordId Record := ∅
  locks : LockManager := {}
  faults : Faults := {}
  nextTxn : TxnId := 1
  autocommitTimeout : Duration := LockConfig.timeout {}
  /-- Transactions committed with at least one write. -/
  commits : Nat := 0
  aborts : Nat := 0
  /-- Writes and commits that found a newer version. -/
  conflicts : Nat := 0

namespace Store

def withLocks (config : LockConfig) : Store := { autocommitTimeout := config.timeout }

/-- Records of the given balances at version 0; of two with one id the later stays. -/
def seeded (balances : List (RecordId × Amount)) : Store where
  records := balances.foldl (fun m (id, balance) => m.insert id (.fresh id balance)) ∅

def get (s : Store) (id : RecordId) : Except Error Record :=
  match s.records[id]? with
  | some r => .ok r
  | none => .error (.notFound id)

def contains (s : Store) (id : RecordId) : Bool := s.records.contains id

def insert (s : Store) (id : RecordId) (balance : Amount) : Except Error Record × Store :=
  if s.contains id then (.error (.validation s!"record {id.text} already exists"), s)
  else (.ok (.fresh id balance), { s with records := s.records.insert id (.fresh id balance) })

def insertAll (s : Store) : List (RecordId × Amount) → Except Error Store
  | [] => .ok s
  | (id, balance) :: rest =>
    match s.insert id balance with
    | (.ok _, s) => s.insertAll rest
    | (.error e, _) => .error e

def ids (s : Store) : List RecordId := s.records.keys

/-- The sum of all balances, formed in ascending order of ids. -/
def totalBalance (s : Store) : Outcome Amount :=
  s.records.toList.foldlM
    (fun sum (_, r) => Outcome.ofChecked .sumOverflow (Amount.add? sum r.balance)) 0

def allocate (s : Store) : TxnId × Store := (s.nextTxn, { s with nextTxn := s.nextTxn + 1 })

def install (s : Store) (id : RecordId) (expected : Version) (balance : Amount) :
    Outcome Record × Store :=
  match s.records[id]? with
  | none => (.error (.error (.notFound id)), s)
  | some r =>
    if r.version ≠ expected then
      (.error (.error (.versionConflict id expected r.version)),
        { s with conflicts := s.conflicts + 1 })
    else match r.next balance with
      | .ok after => (.ok after, { s with records := s.records.insert id after })
      | .error e => (.error e, s)

/-- The first staged write, in ascending order, whose record is gone or has moved on. -/
def invalid? (s : Store) : List (RecordId × StagedWrite) → Option Error
  | [] => none
  | (id, staged) :: rest =>
    match s.records[id]? with
    | none => some (.notFound id)
    | some r =>
      if r.version ≠ staged.base then some (.versionConflict id staged.base r.version)
      else s.invalid? rest

def put (records : Std.TreeMap RecordId Record) (id : RecordId) (staged : StagedWrite) :
    Std.TreeMap RecordId Record :=
  if records.contains id then records.insert id ⟨id, staged.balance, staged.version⟩ else records

/-- Validates the whole write set and then applies it; a write set that fails changes no record. -/
def apply (s : Store) (writes : WriteSet) : Except Error Unit × Store :=
  match s.invalid? writes.toList with
  | some e =>
    (.error e, { s with conflicts := s.conflicts + if e.isConflict then 1 else 0 })
  | none =>
    (.ok (), { s with
      records := writes.toList.foldl (fun m (id, staged) => put m id staged) s.records
      commits := s.commits + 1 })

def setFaults (s : Store) (setting : FaultSetting) : Store :=
  { s with faults := s.faults.set setting }

end Store

end VersionedLedger

import Std.Data.TreeMap
import VersionedLedger.Record

/-! The context of one transaction: its status, the writes staged for commit and the locks it was
granted. Reads inside the transaction see its own staged writes laid over the stored records. -/
namespace VersionedLedger

inductive TransactionStatus
  | active
  | committed
  | aborted (reason : String)
  deriving DecidableEq, Repr

structure StagedWrite where
  base : Version
  balance : Amount
  writes : Nat
  deriving DecidableEq, Repr

namespace StagedWrite

def version (s : StagedWrite) : Version := s.base + s.writes

def version? (s : StagedWrite) : Outcome Version :=
  Outcome.ofChecked .sumOverflow (Version.add? s.base s.writes)

end StagedWrite

abbrev WriteSet := Std.TreeMap RecordId StagedWrite

structure Transaction where
  id : TxnId
  status : TransactionStatus := .active
  writes : WriteSet := ∅
  /-- In the order in which they were granted. -/
  held : List RecordId := []

namespace Transaction

def start (id : TxnId) : Transaction := { id }

def isActive (t : Transaction) : Bool := t.status = .active

def ensureActive (t : Transaction) : Except Error Unit :=
  match t.status with
  | .active => .ok ()
  | .committed => .error (.internal s!"{t.id.text} already committed")
  | .aborted reason => .error (.aborted s!"{t.id.text} aborted: {reason}")

def isReadOnly (t : Transaction) : Bool := t.writes.isEmpty

def view (t : Transaction) (stored : Record) : Outcome Record :=
  match t.writes[stored.id]? with
  | some staged => do
    let version ← staged.version?
    pure ⟨stored.id, staged.balance, version⟩
  | none => .ok stored

/-- Stages a write of a record whose view has the expected version. The answer is the record as
it will be after commit. -/
def stage (t : Transaction) (seen : Record) (expected : Version) (balance : Amount) :
    Outcome Record × Transaction :=
  match t.ensureActive with
  | .error e => (.error (.error e), t)
  | .ok () =>
    if seen.version ≠ expected then
      (.error (.error (.versionConflict seen.id expected seen.version)), t)
    else
      let staged := (t.writes[seen.id]?).getD ⟨seen.version, balance, 0⟩
      let staged := { staged with balance, writes := staged.writes + 1 }
      (seen.next balance, { t with writes := t.writes.insert seen.id staged })

def noteAcquired (t : Transaction) (id : RecordId) : Transaction :=
  if id ∈ t.held then t else { t with held := t.held ++ [id] }

def noteReleased (t : Transaction) (id : RecordId) : Transaction :=
  { t with held := t.held.filter (· ≠ id) }

def takeHeld (t : Transaction) : List RecordId × Transaction := (t.held, { t with held := [] })

def markCommitted (t : Transaction) : Transaction := { t with status := .committed }

def markAborted (t : Transaction) (reason : String) : Transaction :=
  { t with status := .aborted reason, writes := ∅ }

end Transaction

end VersionedLedger

import Std.Data.TreeMap
import VersionedLedger.Failure

/-! Who holds each lock and who waits for whom. An owner waits for at most one other owner, so the
waits form chains; a request that would turn a chain into a cycle is found by walking it. -/
namespace VersionedLedger

structure LockTable where
  owners : Std.TreeMap RecordId TxnId := ∅
  waitsFor : Std.TreeMap TxnId TxnId := ∅

namespace LockTable

/-- `a` reaches `b` along one or more waits. -/
inductive Waits (edges : Std.TreeMap TxnId TxnId) : TxnId → TxnId → Prop
  | edge {a b : TxnId} : edges[a]? = some b → Waits edges a b
  | step {a b c : TxnId} : edges[a]? = some b → Waits edges b c → Waits edges a c

def reaches (edges : Std.TreeMap TxnId TxnId) (goal : TxnId) : Nat → TxnId → Bool
  | 0, _ => false
  | bound + 1, current =>
    if current = goal then true
    else match edges[current]? with
      | some next => reaches edges goal bound next
      | none => false

/-- Whether the waits that begin at `waiter` lead back to it. A chain without repetition visits
each waiting owner once, so the number of waits bounds the walk. -/
def closesCycle (t : LockTable) (waiter : TxnId) : Bool :=
  match t.waitsFor[waiter]? with
  | some holder => reaches t.waitsFor waiter (t.waitsFor.size + 1) holder
  | none => false

def owner? (t : LockTable) (id : RecordId) : Option TxnId := t.owners[id]?

def holds (t : LockTable) (owner : TxnId) (id : RecordId) : Bool := t.owners[id]? == some owner

def heldByOther (t : LockTable) (owner : TxnId) (id : RecordId) : Bool :=
  match t.owners[id]? with
  | some holder => holder != owner
  | none => false

def grant (t : LockTable) (owner : TxnId) (id : RecordId) : LockTable where
  owners := t.owners.insert id owner
  waitsFor := t.waitsFor.erase owner

def wait (t : LockTable) (owner holder : TxnId) : LockTable :=
  { t with waitsFor := t.waitsFor.insert owner holder }

def stopWaiting (t : LockTable) (owner : TxnId) : LockTable :=
  { t with waitsFor := t.waitsFor.erase owner }

/-- Frees the lock if `owner` holds it; waits are left as they are. -/
def release (t : LockTable) (owner : TxnId) (id : RecordId) : LockTable :=
  if t.holds owner id then { t with owners := t.owners.erase id } else t

def releaseAll (t : LockTable) (owner : TxnId) (ids : List RecordId) : LockTable :=
  (ids.foldl (fun t id => t.release owner id) t).stopWaiting owner

end LockTable

end VersionedLedger

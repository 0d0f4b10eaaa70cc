import VersionedLedger.Lock.Manager
import VersionedLedger.Proofs.Lock.Chain

/-! What each operation on the locks does to the owners and to the waits, and all the ways in which
one round of a request can end. -/
namespace VersionedLedger

namespace LockTable

variable {t : LockTable} {owner : TxnId} {id : RecordId}

@[simp] theorem grant_owners (x : RecordId) :
    (t.grant owner id).owners[x]? = if id = x then some owner else t.owners[x]? := by
  simp [grant,Std.TreeMap.getElem?_insert]

@[simp] theorem grant_waitsFor (a : TxnId) :
    (t.grant owner id).waitsFor[a]? = if owner = a then none else t.waitsFor[a]? := by
  simp [grant,Std.TreeMap.getElem?_erase]

@[simp] theorem wait_owners (holder : TxnId) : (t.wait owner holder).owners = t.owners := rfl

@[simp] theorem wait_waitsFor (holder a : TxnId) :
    (t.wait owner holder).waitsFor[a]? = if owner = a then some holder else t.waitsFor[a]? := by
  simp [wait,Std.TreeMap.getElem?_insert]

@[simp] theorem stopWaiting_owners : (t.stopWaiting owner).owners = t.owners := rfl

@[simp] theorem stopWaiting_waitsFor (a : TxnId) :
    (t.stopWaiting owner).waitsFor[a]? = if owner = a then none else t.waitsFor[a]? := by
  simp [stopWaiting,Std.TreeMap.getElem?_erase]

@[simp] theorem release_waitsFor : (t.release owner id).waitsFor = t.waitsFor := by
  unfold release
  split <;> rfl

theorem release_owners (x : RecordId) :
    (t.release owner id).owners[x]? =
      if id = x ∧ t.owners[x]? = some owner then none else t.owners[x]? := by
  unfold release holds
  by_cases held : t.owners[id]? = some owner
  · by_cases same : id = x
    · subst same
      simp [held]
    · simp [held,same,Std.TreeMap.getElem?_erase]
  · by_cases same : id = x
    · subst same
      simp [held]
    · simp [held,same]

theorem release_owners_or_lt (t : LockTable) (owner : TxnId) (id : RecordId) :
    (t.release owner id).owners = t.owners ∨ (t.release owner id).owners.size < t.owners.size := by
  unfold release holds
  by_cases held : t.owners[id]? = some owner
  · right
    have key : t.owners.contains id = true := by
      rw [Std.TreeMap.contains_eq_isSome_getElem?,held]
      rfl
    have inhabited : t.owners.isEmpty = false :=
      Std.TreeMap.isEmpty_eq_false_iff_exists_contains_eq_true.mpr ⟨id,key⟩
    rw [Std.TreeMap.isEmpty_eq_size_eq_zero,beq_eq_false_iff_ne] at inhabited
    simp only [held,beq_self_eq_true,if_true,Std.TreeMap.size_erase,key]
    omega
  · left
    simp [held]

private theorem foldl_release_waitsFor (ids : List RecordId) (t : LockTable) :
    (ids.foldl (fun t id => t.release owner id) t).waitsFor = t.waitsFor := by
  induction ids generalizing t with
  | nil => rfl
  | cons id ids ih => rw [List.foldl_cons,ih,release_waitsFor]

@[simp] theorem releaseAll_waitsFor (ids : List RecordId) (a : TxnId) :
    (t.releaseAll owner ids).waitsFor[a]? = if owner = a then none else t.waitsFor[a]? := by
  rw [releaseAll,stopWaiting_waitsFor,foldl_release_waitsFor]

theorem releaseAll_owners (ids : List RecordId) (x : RecordId) :
    (t.releaseAll owner ids).owners[x]? =
      if x ∈ ids ∧ t.owners[x]? = some owner then none else t.owners[x]? := by
  rw [releaseAll,stopWaiting_owners]
  induction ids generalizing t with
  | nil => simp
  | cons id ids ih =>
    rw [List.foldl_cons,ih,release_owners]
    grind

theorem releaseAll_owners_or_lt (t : LockTable) (owner : TxnId) (ids : List RecordId) :
    (t.releaseAll owner ids).owners = t.owners ∨
      (t.releaseAll owner ids).owners.size < t.owners.size := by
  rw [releaseAll,stopWaiting_owners]
  induction ids generalizing t with
  | nil => exact .inl rfl
  | cons id ids ih =>
    rw [List.foldl_cons]
    have first := release_owners_or_lt t owner id
    rcases ih (t.release owner id) with same | fewer
    · rwa [same]
    · rcases first with same | less
      · rw [same] at fewer
        exact .inr fewer
      · exact .inr (fewer.trans less)

end LockTable

namespace LockManager

variable {m : LockManager} {owner : TxnId} {id : RecordId} {first : Bool}

/-- The ways in which a round ends. A holder that is not the requester is waited for unless its own
waits lead back. -/
inductive Decides (m : LockManager) (owner : TxnId) (id : RecordId) (first : Bool) :
    LockRound → LockManager → Prop
  | granted (free : m.table.owners[id]? = none) :
    Decides m owner id first .granted
      { table := m.table.grant owner id, stats := { m.stats with acquired := m.stats.acquired + 1 } }
  | held (own : m.table.owners[id]? = some owner) :
    Decides m owner id first .held { m with table := m.table.stopWaiting owner }
  | deadlock (holder : TxnId) (taken : m.table.owners[id]? = some holder) (other : holder ≠ owner)
      (cycle : LockTable.Waits (m.table.waitsFor.insert owner holder) owner owner) :
    Decides m owner id first .deadlock
      { table := (m.table.wait owner holder).stopWaiting owner
        stats := { m.stats with deadlocks := m.stats.deadlocks + 1 } }
  | waiting (holder : TxnId) (taken : m.table.owners[id]? = some holder) (other : holder ≠ owner)
      (open_ended : ¬ LockTable.Waits (m.table.waitsFor.insert owner holder) owner owner) :
    Decides m owner id first .waiting
      { table := m.table.wait owner holder
        stats := { m.stats with waits := m.stats.waits + if first then 1 else 0 } }

theorem decides_request (m : LockManager) (owner : TxnId) (id : RecordId) (first : Bool) :
    m.Decides owner id first (m.request owner id first).1 (m.request owner id first).2 := by
  unfold request
  split
  · next free => exact .granted free
  · next holder taken =>
    split
    · next same => exact .held (same ▸ taken)
    · next other =>
      dsimp only
      cases closes : (m.table.wait owner holder).closesCycle owner with
      | true =>
        rw [if_pos rfl]
        exact .deadlock holder taken other (LockTable.closesCycle_iff_waits.mp closes)
      | false =>
        rw [if_neg Bool.false_ne_true]
        refine .waiting holder taken other fun cycle => ?_
        exact Bool.false_ne_true (closes.symm.trans (LockTable.closesCycle_iff_waits.mpr cycle))

namespace Decides

variable {after : LockManager} {r : LockRound}

theorem edge_other (decides : m.Decides owner id first r after) {a : TxnId} (other : a ≠ owner) :
    after.table.waitsFor[a]? = m.table.waitsFor[a]? := by
  cases decides <;> simp [Ne.symm other]

theorem edge_own (decides : m.Decides owner id first r after) :
    after.table.waitsFor[owner]? = if r = .waiting then m.table.owners[id]? else none := by
  cases decides with
  | waiting holder taken => simp [taken]
  | _ => simp

theorem owners_taken (decides : m.Decides owner id first r after) {x : RecordId} {b : TxnId}
    (taken : m.table.owners[x]? = some b) : after.table.owners[x]? = some b := by
  cases decides with
  | granted free =>
    have differ : id ≠ x := by
      intro same
      subst same
      rw [free] at taken
      cases taken
    simp [differ,taken]
  | _ => exact taken

theorem owners_or_granted (decides : m.Decides owner id first r after) {x : RecordId} {b : TxnId}
    (taken : after.table.owners[x]? = some b) :
    m.table.owners[x]? = some b ∨ r = .granted ∧ x = id ∧ b = owner := by
  cases decides with
  | granted free =>
    rw [LockTable.grant_owners] at taken
    split at taken
    · next same => exact .inr ⟨rfl,same.symm,(Option.some.inj taken).symm⟩
    · exact .inl taken
  | _ => exact .inl taken

theorem owned_of_granted (decides : m.Decides owner id first r after) (given : r = .granted ∨ r = .held) :
    after.table.owners[id]? = some owner := by
  cases decides with
  | granted free => simp
  | held own => exact own
  | deadlock | waiting => simp at given

theorem current_of_waiting (decides : m.Decides owner id first .waiting after) :
    ∃ holder, after.table.owners[id]? = some holder ∧
      after.table.waitsFor[owner]? = some holder := by
  cases decides with
  | waiting holder taken => exact ⟨holder,by simpa using taken,by simp⟩

theorem heldCount_le (decides : m.Decides owner id first r after) :
    m.heldCount ≤ after.heldCount := by
  cases decides with
  | granted => exact Std.TreeMap.size_le_size_insert
  | held | deadlock | waiting => exact Nat.le_refl _

theorem acyclic (decides : m.Decides owner id first r after)
    (before : LockTable.Acyclic m.table.waitsFor) : LockTable.Acyclic after.table.waitsFor := by
  cases decides with
  | granted | held => exact before.erase owner
  | deadlock holder =>
    intro a cycle
    refine before a (cycle.of_subset ?_)
    intro x y edge
    by_cases same : owner = x <;> simp [same] at edge
    exact edge
  | waiting holder _ _ open_ended => exact before.insert open_ended

end Decides

end LockManager

end VersionedLedger

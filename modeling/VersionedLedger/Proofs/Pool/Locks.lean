import VersionedLedger.Proofs.Pool.Turn

/-! A move of a pool as the locks see it. Most moves leave the locks and the waiting workers alone; the
others give locks back, make one round of a request, or end a wait without the lock. -/
namespace VersionedLedger

namespace LockTable

/-- What giving locks back does: no owner but the caller loses a lock or a wait. -/
structure Frees (owner : TxnId) (t after : LockTable) : Prop where
  owners : ∀ (x : RecordId) (b : TxnId), after.owners[x]? = some b → t.owners[x]? = some b
  others : ∀ (x : RecordId) (b : TxnId), b ≠ owner → t.owners[x]? = some b →
    after.owners[x]? = some b
  waits : ∀ a b : TxnId, after.waitsFor[a]? = some b → t.waitsFor[a]? = some b
  still : ∀ a, a ≠ owner → after.waitsFor[a]? = t.waitsFor[a]?
  kept_or_fewer : after.owners = t.owners ∨ after.owners.size < t.owners.size

theorem frees_release (t : LockTable) (owner : TxnId) (id : RecordId) :
    Frees owner t (t.release owner id) where
  owners x b := by rw [release_owners]; split <;> simp
  others x b other := by
    rw [release_owners]
    intro taken
    simp [taken,other]
  waits a b := by rw [release_waitsFor]; exact fun waits => waits
  still a _ := by rw [release_waitsFor]
  kept_or_fewer := release_owners_or_lt t owner id

theorem frees_releaseAll (t : LockTable) (owner : TxnId) (ids : List RecordId) :
    Frees owner t (t.releaseAll owner ids) where
  owners x b := by rw [releaseAll_owners]; split <;> simp
  others x b other := by
    rw [releaseAll_owners]
    intro taken
    simp [taken,other]
  waits a b := by rw [releaseAll_waitsFor]; split <;> simp
  still a other := by rw [releaseAll_waitsFor,if_neg (Ne.symm other)]
  kept_or_fewer := releaseAll_owners_or_lt t owner ids

end LockTable

namespace Pool

variable {α : Type} {p q : Pool α} {m : Move}

/-- The owner for whom a move calls on the locks, rounds after the first one apart. -/
def caller? (p : Pool α) : Move → Option TxnId
  | .step i => (p.workers[i]?).bind Worker.caller?
  | _ => none

inductive LockMove (p : Pool α) (m : Move) (q : Pool α) : Prop
  | quiet (locks : q.ledger.store.locks = p.ledger.store.locks) (waits : ∀ j, q.wait? j = p.wait? j)
  | frees (owner : TxnId) (calls : p.caller? m = some owner)
      (frees : LockTable.Frees owner p.table q.table)
      (waits : q.table.owners = p.table.owners ∧ (∀ j, q.wait? j = p.wait? j) ∨
        ∀ j, q.wait? j = (p.wait? j).map LockWait.wake)
  | round (i : Nat) (lw : LockWait) (first : Bool) (r : LockRound)
      (asks : p.wait? i = none ∧ p.caller? m = some lw.owner ∨ p.wait? i = some lw)
      (decides : p.ledger.store.locks.Decides lw.owner lw.id first r q.ledger.store.locks)
      (own : q.wait? i = if r = .waiting then some { lw with woken := false } else none)
      (others : ∀ j, j ≠ i → q.wait? j = p.wait? j)
  | giveUp (i : Nat) (lw : LockWait) (waited : p.wait? i = some lw)
      (locks : q.ledger.store.locks = p.ledger.store.locks.giveUp lw.owner)
      (own : q.wait? i = none) (others : ∀ j, j ≠ i → q.wait? j = p.wait? j)

private theorem others_of_kept {i : Nat} {after : Worker α} {s : Ledger}
    (kept : p.ledger.store.locks.heldCount ≤ s.store.locks.heldCount) (j : Nat) (other : j ≠ i) :
    (p.update i (after, s)).wait? j = p.wait? j := by
  rw [wait?_update_other other]
  simp [Nat.not_lt.mpr kept]

theorem frees_answer {s : Ledger} {c : Call} {owner : TxnId} (prompt : c.waits = false)
    (calls : c.lockOwner? = some owner) :
    LockTable.Frees owner s.store.locks.table (s.answer c).2.store.locks.table := by
  cases c with
  | release _ id =>
    cases calls
    exact LockTable.frees_release _ owner id
  | releaseAll _ ids =>
    cases calls
    exact LockTable.frees_releaseAll _ owner ids
  | acquire => cases prompt
  | _ => cases calls

private theorem wait?_update_kept {i : Nat} {w after : Worker α} {s : Ledger}
    (present : p.workers[i]? = some w) (idle : w.wait? = none) (stays : after.wait? = none)
    (kept : p.ledger.store.locks.heldCount ≤ s.store.locks.heldCount) (j : Nat) :
    (p.update i (after, s)).wait? j = p.wait? j := by
  by_cases same : j = i
  · subst same
    rw [wait?_update_self present,stays,wait?_of_present present,idle]
  · exact others_of_kept kept j same

private theorem wait?_update_freed {i : Nat} {w after : Worker α} {s : Ledger}
    (present : p.workers[i]? = some w) (idle : w.wait? = none) (stays : after.wait? = none)
    (freed : s.store.locks.heldCount < p.ledger.store.locks.heldCount) (j : Nat) :
    (p.update i (after, s)).wait? j = (p.wait? j).map LockWait.wake := by
  by_cases same : j = i
  · subst same
    rw [wait?_update_self present,stays,wait?_of_present present,idle]
    rfl
  · rw [wait?_update_other same]
    simp [freed]

private theorem quiet_update {i : Nat} {w after : Worker α} {s : Ledger}
    (present : p.workers[i]? = some w) (idle : w.wait? = none) (stays : after.wait? = none)
    (locks : s.store.locks = p.ledger.store.locks) : LockMove p m (p.update i (after, s)) :=
  .quiet locks (wait?_update_kept present idle stays (Nat.le_of_eq (by rw [locks])))

theorem lockMove (p : Pool α) (m : Move) : LockMove p m (p.move m) := by
  rcases p.move_cases m with ⟨d,passes⟩ | still | ⟨i,w,after,s,present,turn,moved,made⟩
  · rw [passes]
    exact .quiet rfl fun _ => rfl
  · rw [still]
    exact .quiet rfl fun _ => rfl
  · rw [moved]
    have calling (idle : w.wait? = none) : p.caller? m = w.caller? := by
      rcases made with rfl | ⟨_,lw,next,rfl⟩
      · simp [caller?,present]
      · cases idle
    cases turn with
    | finish a => exact quiet_update present rfl rfl rfl
    | doze d watched next => exact quiet_update present rfl rfl rfl
    | rise wake watched next due => exact quiet_update present rfl rfl rfl
    | cut wake next cancelled => exact quiet_update present rfl rfl rfl
    | missing owner id timeout next absent => exact quiet_update present rfl rfl rfl
    | answer c next prompt =>
      cases named : c.lockOwner? with
      | none => exact quiet_update present rfl rfl (p.ledger.locks_answer named)
      | some owner =>
        have frees := frees_answer (s := p.ledger) prompt named
        refine .frees owner ((calling rfl).trans named) frees ?_
        rcases frees.kept_or_fewer with kept | fewer
        · refine .inl ⟨kept,wait?_update_kept present rfl rfl (Nat.le_of_eq ?_)⟩
          exact congrArg Std.TreeMap.size kept.symm
        · exact .inr (wait?_update_freed present rfl rfl fewer)
    | @round _ lw first next r locks asks decides =>
      refine .round i lw first r ?_ decides ?_ (others_of_kept decides.heldCount_le)
      · cases asks with
        | first owner id timeout existing next _ =>
          exact .inl ⟨wait?_of_present present,calling rfl⟩
        | again => exact .inr (wait?_of_present present)
      · rw [wait?_update_self present]
        cases r <;> rfl
    | giveUp lw next waited taken =>
      exact .giveUp i lw (wait?_of_present present) rfl (wait?_update_self present _ _)
        (others_of_kept (Nat.le_refl _))

end Pool

end VersionedLedger

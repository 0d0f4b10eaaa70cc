import VersionedLedger.Ledger.State

/-! Which part of the store an answer can change. Locks, records and the counter of identities belong to
a few calls each, and every other call leaves them as they are. -/
namespace VersionedLedger

namespace Call

def waits : Call → Bool
  | acquire .. | sleep .. => true
  | _ => false

def lockOwner? : Call → Option TxnId
  | acquire owner _ _ _ | release owner _ | releaseAll owner _ => some owner
  | _ => none

def writes : Call → Bool
  | install .. | apply _ => true
  | _ => false

end Call

namespace Store

variable (s : Store) (id : RecordId) (expected : Version) (balance : Amount) (writes : WriteSet)

theorem exists_install_eq :
    ∃ records conflicts, (s.install id expected balance).2 = { s with records, conflicts } := by
  unfold install
  split
  · exact ⟨_,_,rfl⟩
  · split
    · exact ⟨_,_,rfl⟩
    · split <;> exact ⟨_,_,rfl⟩

@[simp] theorem locks_install : (s.install id expected balance).2.locks = s.locks := by
  obtain ⟨_,_,written⟩ := s.exists_install_eq id expected balance
  rw [written]

@[simp] theorem nextTxn_install : (s.install id expected balance).2.nextTxn = s.nextTxn := by
  obtain ⟨_,_,written⟩ := s.exists_install_eq id expected balance
  rw [written]

@[simp] theorem faults_install : (s.install id expected balance).2.faults = s.faults := by
  obtain ⟨_,_,written⟩ := s.exists_install_eq id expected balance
  rw [written]

@[simp] theorem locks_apply : (s.apply writes).2.locks = s.locks := by
  unfold apply
  split <;> rfl

@[simp] theorem nextTxn_apply : (s.apply writes).2.nextTxn = s.nextTxn := by
  unfold apply
  split <;> rfl

@[simp] theorem faults_apply : (s.apply writes).2.faults = s.faults := by
  unfold apply
  split <;> rfl

end Store

namespace Ledger

variable (s : Ledger)

@[simp] theorem store_report (events : List Event) : (s.report events).store = s.store := by
  unfold report
  split <;> rfl

@[simp] theorem store_onBreaker {α : Type} (h : CircuitHandle)
    (act : Breaker → Time → α × Breaker × List Event) : (s.onBreaker h act).2.store = s.store := by
  unfold onBreaker
  dsimp only
  split
  · rw [store_report]
    rfl
  · rfl

theorem exists_draw_eq : ∃ n, s.draw = (n >>> 11, { s with seed := n }) := ⟨_,rfl⟩

theorem draw_of_seed {s s' : Ledger} (same : s'.seed = s.seed) :
    s'.draw = (s.draw.1, { s' with seed := s.draw.2.seed }) := by
  unfold draw
  rw [same]

@[simp] theorem store_draw : s.draw.2.store = s.store := by
  obtain ⟨n,drawn⟩ := s.exists_draw_eq
  rw [drawn]

theorem exists_checkFault_eq (operation : String) : ∃ faults clock seed,
    (s.checkFault operation).2 = { s with store := { s.store with faults }, clock, seed } := by
  obtain ⟨n,drawn⟩ := (s.elapse s.store.faults.latency).exists_draw_eq
  unfold checkFault
  rw [drawn]
  exact ⟨_,_,_,rfl⟩

theorem store_checkFault (operation : String) :
    (s.checkFault operation).2.store.locks = s.store.locks ∧
      (s.checkFault operation).2.store.nextTxn = s.store.nextTxn ∧
        (s.checkFault operation).2.store.records = s.store.records := by
  obtain ⟨faults,clock,seed,checked⟩ := s.exists_checkFault_eq operation
  rw [checked]
  exact ⟨rfl,rfl,rfl⟩

variable {c : Call}

theorem locks_answer (nobody : c.lockOwner? = none) :
    (s.answer c).2.store.locks = s.store.locks := by
  cases c with
  | acquire | release | releaseAll => cases nobody
  | checkFault operation => exact (s.store_checkFault operation).1
  | draw => exact congrArg Store.locks s.store_draw
  | install id expected balance => exact Store.locks_install _ _ _ _
  | apply writes => exact Store.locks_apply _ _
  | admitCall h => exact congrArg Store.locks (store_onBreaker s h _)
  | recordCall h p failed => exact congrArg Store.locks (store_onBreaker s h _)
  | report e => exact congrArg Store.locks (store_report s [e])
  | _ => rfl

theorem lockStats_answer (prompt : c.waits = false) :
    (s.answer c).2.store.locks.stats = s.store.locks.stats := by
  cases named : c.lockOwner? with
  | none => rw [s.locks_answer named]
  | some owner =>
    cases c with
    | release | releaseAll => rfl
    | acquire => cases prompt
    | _ => cases named

theorem nextTxn_answer (prompt : c.waits = false) (begins_not : c ≠ .begin) :
    (s.answer c).2.store.nextTxn = s.store.nextTxn := by
  cases c with
  | begin => exact absurd rfl begins_not
  | acquire | sleep => cases prompt
  | checkFault operation => exact (s.store_checkFault operation).2.1
  | draw => exact congrArg Store.nextTxn s.store_draw
  | install id expected balance => exact Store.nextTxn_install _ _ _ _
  | apply writes => exact Store.nextTxn_apply _ _
  | admitCall h => exact congrArg Store.nextTxn (store_onBreaker s h _)
  | recordCall h p failed => exact congrArg Store.nextTxn (store_onBreaker s h _)
  | report e => exact congrArg Store.nextTxn (store_report s [e])
  | _ => rfl

theorem records_answer (prompt : c.waits = false) (keeps : c.writes = false) :
    (s.answer c).2.store.records = s.store.records := by
  cases c with
  | acquire | sleep => cases prompt
  | install | apply => cases keeps
  | checkFault operation => exact (s.store_checkFault operation).2.2
  | draw => exact congrArg Store.records s.store_draw
  | admitCall h => exact congrArg Store.records (store_onBreaker s h _)
  | recordCall h p failed => exact congrArg Store.records (store_onBreaker s h _)
  | report e => exact congrArg Store.records (store_report s [e])
  | _ => rfl

end Ledger

end VersionedLedger

import VersionedLedger.Proofs.Serial.Alone

/-! Committing one transaction. A commit ends in one of five ways: the transaction has ended before, it has
staged nothing, a fault is due, a staged record is missing or has moved on, or the whole write set is
applied. Only the last one changes records, and every one of them gives the locks back. -/
namespace VersionedLedger

open Procedure View

namespace Faults

/-- The oldest scripted outcome is a failure; or there is none, and the counter or chance fails the check. -/
def Due (f : Faults) (number : Nat) : Prop :=
  f.script.head? = some true ∨ f.script = [] ∧ (0 < f.failNext ∨ number < f.rate)

variable {f : Faults} {number : Nat} {operation : String}

theorem due_iff : (f.due number).1 = true ↔ f.Due number := by
  unfold due Due
  split
  · next outcome rest here => simp [here]
  · next here =>
    split
    · next counted => simp [here,counted]
    · next counted => simp [here,counted]

theorem check_of_due (due : f.Due number) :
    (f.check number operation).1 = .error (.unavailable s!"injected fault during {operation}") := by
  unfold check
  simp [due_iff.mpr due]

theorem check_of_not_due (spared : ¬ f.Due number) : (f.check number operation).1 = .ok () := by
  unfold check
  simp [mt due_iff.mp spared]

end Faults

namespace Ledger

variable (s : Ledger)

/-- The next check of a write finds a fault; the number is the one that it will draw. -/
def FaultDue : Prop := s.store.faults.Due (s.draw.1 % Faults.million)

def giveBack (t : Transaction) : Ledger := s.onLocks (·.releaseAll t.id t.held)

def countAbort : Ledger := (s.answer .countAbort).2

def afterCheck : Ledger := (s.checkFault "commit").2

variable {s} {operation : String}

theorem checkFault_of_due (due : s.FaultDue) :
    (s.checkFault operation).1 = .error (.unavailable s!"injected fault during {operation}") :=
  Faults.check_of_due due

theorem checkFault_of_not_due (spared : ¬ s.FaultDue) : (s.checkFault operation).1 = .ok () :=
  Faults.check_of_not_due spared

@[simp] theorem view_afterCheck : s.afterCheck.store.view = s.store.view := by
  have same := (s.store_checkFault "commit").2.2
  unfold Store.view afterCheck
  rw [same]

@[simp] theorem locks_afterCheck : s.afterCheck.store.locks = s.store.locks :=
  (s.store_checkFault "commit").1

end Ledger

namespace View

/-- The record of a staged write is missing, or it is not at the version that the write began at. -/
inductive Offends (V : View) (id : RecordId) (staged : StagedWrite) : Error → Prop
  | missing (gone : V id = none) : Offends V id staged (.notFound id)
  | moved {r : Record} (here : V id = some r) (differs : r.version ≠ staged.base) :
    Offends V id staged (.versionConflict id staged.base r.version)

theorem overlay_of_isEmpty {V : View} {writes : WriteSet} (nothing : writes.isEmpty = true) :
    overlay V writes = V := by
  funext id
  have unstaged : writes[id]? = none := Std.TreeMap.getElem?_of_isEmpty nothing
  unfold overlay
  rw [unstaged]

end View

namespace Store

variable {s : Store} {writes : WriteSet} {e : Error}

theorem exists_first_of_invalid? {entries : List (RecordId × StagedWrite)}
    (ascending : entries.Pairwise fun a b => a.1 < b.1) (invalid : s.invalid? entries = some e) :
    ∃ id staged, (id, staged) ∈ entries ∧ Offends s.view id staged e ∧
      ∀ entry ∈ entries, entry.1 < id → ∃ r, s.view entry.1 = some r ∧ r.version = entry.2.base := by
  induction entries with
  | nil => cases invalid
  | cons entry rest ih =>
    obtain ⟨id,staged⟩ := entry
    obtain ⟨above,ascending⟩ := List.pairwise_cons.mp ascending
    have first {e : Error} (offends : Offends s.view id staged e) :
        ∃ id' staged', (id', staged') ∈ (id, staged) :: rest ∧ Offends s.view id' staged' e ∧
          ∀ entry ∈ (id, staged) :: rest, entry.1 < id' →
            ∃ r, s.view entry.1 = some r ∧ r.version = entry.2.base := by
      refine ⟨id,staged,List.mem_cons_self,offends,fun entry member below => ?_⟩
      rcases List.mem_cons.mp member with rfl | later
      · exact absurd below (Nat.lt_irrefl _)
      · exact absurd below (Nat.lt_asymm (above entry later))
    unfold invalid? at invalid
    split at invalid
    · next gone =>
      cases invalid
      exact first (.missing gone)
    · next r here =>
      split at invalid
      · next differs =>
        cases invalid
        exact first (.moved here differs)
      · next current =>
        obtain ⟨id',staged',member,offends,least⟩ := ih ascending invalid
        refine ⟨id',staged',List.mem_cons_of_mem _ member,offends,fun entry member below => ?_⟩
        rcases List.mem_cons.mp member with rfl | later
        · exact ⟨r,here,Decidable.not_not.mp current⟩
        · exact least entry later below

theorem exists_least_of_apply (failed : (s.apply writes).1 = .error e) :
    ∃ id staged, writes[id]? = some staged ∧ Offends s.view id staged e ∧
      ∀ id' < id, ∀ staged', writes[id']? = some staged' →
        ∃ r, s.view id' = some r ∧ r.version = staged'.base := by
  unfold apply at failed
  split at failed
  · next e' invalid =>
    cases failed
    have ascending : writes.toList.Pairwise fun a b => a.1 < b.1 :=
      Std.TreeMap.ordered_keys_toList.imp fun before => Nat.compare_eq_lt.mp before
    obtain ⟨id,staged,member,offends,least⟩ := exists_first_of_invalid? ascending invalid
    refine ⟨id,staged,Std.TreeMap.mem_toList_iff_getElem?_eq_some.mp member,offends,?_⟩
    intro id' below staged' here
    exact least (id', staged') (Std.TreeMap.mem_toList_iff_getElem?_eq_some.mpr here) below
  · cases failed

end Store

namespace LockTable

variable {owners left : RecordId → Option TxnId} {freed : RecordId → Prop} [DecidablePred freed]
  {owner b : TxnId}

theorem not_owner_of_freed
    (frees : ∀ x, left x = if freed x ∧ owners x = some owner then none else owners x) {x : RecordId}
    (covered : owners x = some owner → freed x) : left x ≠ some owner := by
  intro owned
  rw [frees] at owned
  split at owned
  · cases owned
  · next kept => exact kept ⟨covered owned,owned⟩

theorem other_of_freed
    (frees : ∀ x, left x = if freed x ∧ owners x = some owner then none else owners x) (x : RecordId)
    (other : b ≠ owner) : left x = some b ↔ owners x = some b := by
  rw [frees]
  split
  · next own => simp [own.2,Ne.symm other]
  · rfl

end LockTable

namespace Transaction

def emptyHanded (t : Transaction) : Transaction := { t with held := [] }

theorem ensureActive_eq_ok {t : Transaction} : t.ensureActive = .ok () ↔ t.status = .active := by
  unfold ensureActive
  split <;> simp_all

theorem isActive_iff {t : Transaction} : t.isActive = true ↔ t.status = .active := by
  simp [isActive]

end Transaction

namespace Session

variable {s : Ledger} {t : Transaction} {α : Type}

inductive Commits (s : Ledger) (t : Transaction) : Outcome Unit → Transaction → Ledger → Prop
  | ended {e : Error} (inactive : t.ensureActive = .error e) :
    Commits s t (.error (.error e)) t.emptyHanded (s.giveBack t)
  | readOnly (active : t.status = .active) (nothing : t.writes.isEmpty = true) :
    Commits s t (.ok ()) t.markCommitted.emptyHanded (s.giveBack t)
  | fault {e : Error} (active : t.status = .active) (pending : t.writes.isEmpty = false)
      (due : s.FaultDue) (named : e = .unavailable "injected fault during commit") :
    Commits s t (.error (.error e)) (t.markAborted e.message).emptyHanded
      (s.afterCheck.countAbort.giveBack t)
  | refused {e : Error} (active : t.status = .active) (pending : t.writes.isEmpty = false)
      (spared : ¬ s.FaultDue) (invalid : (s.afterCheck.store.apply t.writes).1 = .error e) :
    Commits s t (.error (.error e)) (t.markAborted e.message).emptyHanded
      ((s.afterCheck.answer (.apply t.writes)).2.countAbort.giveBack t)
  | applied (active : t.status = .active) (pending : t.writes.isEmpty = false)
      (spared : ¬ s.FaultDue) (valid : (s.afterCheck.store.apply t.writes).1 = .ok ()) :
    Commits s t (.ok ()) t.markCommitted.emptyHanded
      ((s.afterCheck.answer (.apply t.writes)).2.giveBack t)

theorem alone_abort (active : t.status = .active) (reason : String) (s : Ledger) :
    (abort reason).Obeys Rule.alone (fun answer after left => answer = .ok () ∧
      after = (t.markAborted reason).emptyHanded ∧ left = s.countAbort.giveBack t) t s := by
  have still : t.isActive = true := Transaction.isActive_iff.mpr active
  simp only [abort,releaseHeld,obeys_bind,obeys_get,obeys_ite,if_pos still,obeys_modify,obeys_perform,
    obeys_set]
  exact ⟨trivial,rfl,rfl⟩

theorem alone_abort_fail (active : t.status = .active) (e : Error) (s : Ledger) :
    (abort e.message >>= fun _ => fail e : Session α).Obeys Rule.alone (fun answer after left =>
      answer = .error (.error e) ∧ after = (t.markAborted e.message).emptyHanded ∧
        left = s.countAbort.giveBack t) t s := by
  rw [obeys_bind]
  refine (alone_abort active e.message s).mono Rule.alone_monotone fun answer after left ends => ?_
  obtain ⟨rfl,ends⟩ := ends
  exact ⟨rfl,ends⟩

theorem alone_commits (s : Ledger) (t : Transaction) :
    commit.Obeys Rule.alone (Commits s t) t s := by
  simp only [commit,obeys_bind,obeys_get]
  split
  · next e inactive =>
    simp only [releaseHeld,obeys_bind,obeys_get,obeys_set,obeys_perform,obeys_fail]
    exact .ended inactive
  · next ok =>
    have active := Transaction.ensureActive_eq_ok.mp ok
    rw [obeys_ite]
    split
    · next nothing =>
      simp only [releaseHeld,obeys_bind,obeys_modify,obeys_get,obeys_set,obeys_perform]
      exact .readOnly active nothing
    · next staged =>
      have pending : t.writes.isEmpty = false := by simpa [Transaction.isReadOnly] using staged
      rw [obeys_bind,obeys_perform]
      by_cases due : s.FaultDue
      · refine Rule.alone_of_reply (Ledger.checkFault_of_due due) ?_
        refine (alone_abort_fail active _ s.afterCheck).mono Rule.alone_monotone fun answer after left ends => ?_
        obtain ⟨rfl,rfl,rfl⟩ := ends
        exact .fault active pending due rfl
      · refine Rule.alone_of_reply (Ledger.checkFault_of_not_due due) ?_
        dsimp only
        rw [obeys_bind,obeys_perform]
        cases applied : (s.afterCheck.store.apply t.writes).1 with
        | error e =>
          refine Rule.alone_of_reply applied ?_
          refine (alone_abort_fail active e _).mono Rule.alone_monotone fun answer after left ends => ?_
          obtain ⟨rfl,rfl,rfl⟩ := ends
          exact .refused active pending due applied
        | ok _ =>
          refine Rule.alone_of_reply applied ?_
          simp only [releaseHeld,obeys_bind,obeys_modify,obeys_get,obeys_set,obeys_perform]
          exact .applied active pending due applied

namespace Commits

variable {left : Ledger} {answer : Outcome Unit} {after : Transaction}

theorem locks_eq (commits : Commits s t answer after left) :
    left.store.locks = s.store.locks.releaseAll t.id t.held := by
  have given {s' : Ledger} (same : s'.store.locks = s.store.locks) :
      (s'.giveBack t).store.locks = s.store.locks.releaseAll t.id t.held :=
    congrArg (LockManager.releaseAll · t.id t.held) same
  cases commits with
  | ended | readOnly => exact given rfl
  | fault => exact given s.locks_afterCheck
  | refused | applied => exact given ((Store.locks_apply _ _).trans s.locks_afterCheck)

theorem held_eq_nil (commits : Commits s t answer after left) : after.held = [] := by
  cases commits <;> rfl

theorem view_of_ok (commits : Commits s t (.ok ()) after left) :
    left.store.view = overlay s.store.view t.writes := by
  cases commits with
  | readOnly active nothing => exact (overlay_of_isEmpty nothing).symm
  | applied active pending spared valid =>
    have laid := (Store.view_apply_ok valid).2
    rwa [s.view_afterCheck] at laid

theorem view_of_error {e : Failure} (commits : Commits s t (.error e) after left) :
    left.store.view = s.store.view := by
  cases commits with
  | ended => rfl
  | fault => exact s.view_afterCheck
  | refused active pending spared invalid =>
    exact (Store.view_apply_error invalid).trans s.view_afterCheck

theorem ok_iff (commits : Commits s t answer after left) : answer = .ok () ↔
    t.status = .active ∧ (t.writes.isEmpty = true ∨ ¬ s.FaultDue ∧ Current s.store.view t.writes) := by
  cases commits with
  | ended inactive =>
    have finished : t.status ≠ .active := by
      intro active
      rw [Transaction.ensureActive_eq_ok.mpr active] at inactive
      cases inactive
    simp [finished]
  | readOnly active nothing => simp [active,nothing]
  | fault active pending due => simp [pending,due]
  | refused active pending spared invalid =>
    have stale : ¬ Current s.store.view t.writes := by
      intro current
      rw [← s.view_afterCheck] at current
      rw [Store.apply_eq_of_current current] at invalid
      cases invalid
    simp [pending,stale]
  | applied active pending spared valid =>
    have current := (Store.view_apply_ok valid).1
    rw [s.view_afterCheck] at current
    simp [active,spared,current]

theorem status_of_ok (commits : Commits s t (.ok ()) after left) : after.status = .committed := by
  cases commits <;> rfl

theorem exists_error {f : Failure} (commits : Commits s t (.error f) after left) :
    ∃ e, f = .error e ∧
      (t.status = .active → after.status = .aborted e.message ∧ after.writes = ∅) := by
  cases commits with
  | ended inactive =>
    refine ⟨_,rfl,fun active => ?_⟩
    rw [Transaction.ensureActive_eq_ok.mpr active] at inactive
    cases inactive
  | fault | refused => exact ⟨_,rfl,fun _ => ⟨rfl,rfl⟩⟩

theorem exists_least {e : Error} (commits : Commits s t (.error (.error e)) after left)
    (named : e.isConflict = true ∨ e.isNotFound = true) :
    ∃ id staged, t.writes[id]? = some staged ∧ Offends s.store.view id staged e ∧
      ∀ id' < id, ∀ staged', t.writes[id']? = some staged' →
        ∃ r, s.store.view id' = some r ∧ r.version = staged'.base := by
  cases commits with
  | ended inactive =>
    unfold Transaction.ensureActive at inactive
    split at inactive <;> cases inactive <;> simp [Error.isConflict,Error.isNotFound] at named
  | fault active pending due text =>
    subst text
    simp [Error.isConflict,Error.isNotFound] at named
  | refused active pending spared invalid =>
    have least := Store.exists_least_of_apply invalid
    rwa [s.view_afterCheck] at least

theorem owners_eq (commits : Commits s t answer after left) (x : RecordId) :
    left.store.locks.table.owners[x]? = if x ∈ t.held ∧ s.store.locks.table.owners[x]? = some t.id
      then none else s.store.locks.table.owners[x]? := by
  rw [commits.locks_eq]
  exact LockTable.releaseAll_owners t.held x

end Commits

/-- A commit installs the whole write set or changes no record. It succeeds exactly if the transaction is
active and either has staged nothing or meets no fault and finds every record at the version that it staged
from; if not, the error names the least record that is missing or has moved on. In the end the locks that the
transaction noted are free, and all others are as they were. -/
theorem commit_all_or_nothing (s : Ledger) (t : Transaction) :
    ∃ (answer : Outcome Unit) (after : Transaction) (left : Ledger),
      s.run (commit.start t) = ((answer, after), left) ∧
      (answer = .ok () ↔ t.status = .active ∧ (t.writes.isEmpty = true ∨ ¬ s.FaultDue ∧
        ∀ (id : RecordId) (staged : StagedWrite), t.writes[id]? = some staged →
          ∃ r, s.store.records[id]? = some r ∧ r.version = staged.base)) ∧
      (answer = .ok () → after.status = .committed ∧ ∀ id : RecordId,
        (∀ staged, t.writes[id]? = some staged →
          left.store.records[id]? = some ⟨id, staged.balance, staged.base + staged.writes⟩) ∧
        (t.writes[id]? = none → left.store.records[id]? = s.store.records[id]?)) ∧
      (∀ f, answer = .error f → ∃ e, f = .error e ∧
        (∀ id : RecordId, left.store.records[id]? = s.store.records[id]?) ∧
        (t.status = .active → after.status = .aborted e.message ∧ after.writes = ∅) ∧
        (e.isConflict = true ∨ e.isNotFound = true → ∃ id staged, t.writes[id]? = some staged ∧
          Offends s.store.view id staged e ∧ ∀ id' < id, ∀ staged', t.writes[id']? = some staged' →
            ∃ r, s.store.records[id']? = some r ∧ r.version = staged'.base)) ∧
      after.held = [] ∧
      (∀ x : RecordId, left.store.locks.table.owners[x]? =
        if x ∈ t.held ∧ s.store.locks.table.owners[x]? = some t.id then none
        else s.store.locks.table.owners[x]?) ∧
      ((∀ x : RecordId, s.store.locks.table.owners[x]? = some t.id → x ∈ t.held) →
        ∀ x : RecordId, left.store.locks.table.owners[x]? ≠ some t.id) := by
  have commits := (Program.obeys_alone _ _ _).mp (alone_commits s t)
  generalize ran : s.run (commit.start t) = result at commits
  obtain ⟨⟨answer,after⟩,left⟩ := result
  change Commits s t answer after left at commits
  refine ⟨answer,after,left,rfl,commits.ok_iff,?_,?_,commits.held_eq_nil,commits.owners_eq,?_⟩
  · rintro rfl
    refine ⟨commits.status_of_ok,fun id => ?_⟩
    have laid : left.store.records[id]? = overlay s.store.view t.writes id := congrFun commits.view_of_ok id
    refine ⟨fun staged here => ?_,fun unstaged => ?_⟩
    · rw [laid,overlay,here]
      rfl
    · rw [laid,overlay,unstaged]
      rfl
  · rintro f rfl
    obtain ⟨e,rfl,aborted⟩ := commits.exists_error
    exact ⟨e,rfl,fun id => congrFun commits.view_of_error id,aborted,commits.exists_least⟩
  · exact fun noted x => LockTable.not_owner_of_freed commits.owners_eq (noted x)

end Session

end VersionedLedger

import VersionedLedger.Proofs.Store.Calls

/-! What one call leaves of the locks, of the status of its transaction and of the counters of the store. A call
in a transaction touches no other transaction; it gives back what was noted when it ends the transaction, and
counts the end unless nothing was committed. Calls on the store itself leave all of this as it was. -/
namespace VersionedLedger

open Procedure View

namespace LockManager

def Unwaited (m : LockManager) : Prop := ∀ a : TxnId, m.table.waitsFor[a]? = none

variable {m : LockManager}

theorem Unwaited.release (unwaited : m.Unwaited) (owner : TxnId) (id : RecordId) :
    (m.release owner id).Unwaited := by
  intro a
  change (m.table.release owner id).waitsFor[a]? = none
  rw [LockTable.release_waitsFor]
  exact unwaited a

theorem Unwaited.releaseAll (unwaited : m.Unwaited) (owner : TxnId) (ids : List RecordId) :
    (m.releaseAll owner ids).Unwaited := by
  intro a
  change (m.table.releaseAll owner ids).waitsFor[a]? = none
  rw [LockTable.releaseAll_waitsFor,unwaited a,ite_self]

theorem release_eq {owner : TxnId} {id : RecordId} (other : m.table.owners[id]? ≠ some owner) :
    m.release owner id = m := by
  simp [release,LockTable.release,LockTable.holds,other]

end LockManager

namespace Ledger

def counted (s : Ledger) : Nat := s.store.commits + s.store.aborts

structure Rests (s left : Ledger) : Prop where
  owners : ∀ x : RecordId, left.store.locks.table.owners[x]? = s.store.locks.table.owners[x]?
  unwaited : s.store.locks.Unwaited → left.store.locks.Unwaited
  counted : left.counted = s.counted
  next : s.store.nextTxn ≤ left.store.nextTxn

variable {s s' left : Ledger}

theorem Rests.trans (rests : s.Rests s') (further : s'.Rests left) : s.Rests left where
  owners x := (further.owners x).trans (rests.owners x)
  unwaited none := further.unwaited (rests.unwaited none)
  counted := further.counted.trans rests.counted
  next := Nat.le_trans rests.next further.next

theorem rests_of_store (locks : left.store.locks = s.store.locks) (counted : left.counted = s.counted)
    (next : s.store.nextTxn ≤ left.store.nextTxn) : s.Rests left :=
  ⟨fun x => by rw [locks],fun none => locks ▸ none,counted,next⟩

theorem rests_checkFault (s : Ledger) (operation : String) : s.Rests (s.checkFault operation).2 := by
  obtain ⟨faults,clock,seed,checked⟩ := s.exists_checkFault_eq operation
  refine rests_of_store ?_ ?_ ?_
  · rw [checked]
  · rw [counted,checked]
    rfl
  · rw [checked]

theorem exists_acquire_eq (s : Ledger) (owner : TxnId) (id : RecordId) (timeout : Option Duration)
    (existing : Bool) : ∃ locks clock, (s.acquire owner id timeout existing).2 =
      { s with store := { s.store with locks }, clock } ∧ (s.store.locks.Unwaited → locks.Unwaited) := by
  have decides := s.store.locks.decides_request owner id true
  unfold acquire requestLock
  split
  · exact ⟨_,_,rfl,fun none => none⟩
  · generalize s.store.locks.request owner id true = result at decides
    obtain ⟨round,locks⟩ := result
    have quiet (decided : round ≠ .waiting) (none : s.store.locks.Unwaited) : locks.Unwaited := by
      intro a
      by_cases own : a = owner
      · rw [own,decides.edge_own]
        exact if_neg decided
      · rw [decides.edge_other own]
        exact none a
    cases round with
    | granted | held | deadlock => exact ⟨locks,_,rfl,quiet LockRound.noConfusion⟩
    | waiting =>
      refine ⟨locks.giveUp owner,_,rfl,fun none a => ?_⟩
      change (locks.table.stopWaiting owner).waitsFor[a]? = Option.none
      rw [LockTable.stopWaiting_waitsFor]
      split
      · rfl
      · next other => exact (decides.edge_other (Ne.symm other)).trans (none a)

theorem rests_acquire_of_refused {owner : TxnId} {id : RecordId} {timeout : Option Duration} {existing : Bool}
    (owners : ∀ x : RecordId, (s.acquire owner id timeout existing).2.store.locks.table.owners[x]? =
      s.store.locks.table.owners[x]?) : s.Rests (s.acquire owner id timeout existing).2 := by
  obtain ⟨locks,clock,acquired,quiet⟩ := s.exists_acquire_eq owner id timeout existing
  rw [acquired] at owners ⊢
  exact ⟨owners,quiet,rfl,Nat.le_refl _⟩

theorem counted_install (s : Ledger) (id : RecordId) (expected : Version) (balance : Amount) :
    (s.onStore (·.install id expected balance)).2.counted = s.counted := by
  obtain ⟨records,conflicts,installed⟩ := s.store.exists_install_eq id expected balance
  change (s.store.install id expected balance).2.commits + (s.store.install id expected balance).2.aborts = _
  rw [installed]
  rfl

theorem counted_apply_ok {writes : WriteSet} (applied : (s.store.apply writes).1 = .ok ()) :
    (s.answer (.apply writes)).2.counted = s.counted + 1 := by
  change (s.store.apply writes).2.commits + (s.store.apply writes).2.aborts = s.counted + 1
  unfold Store.apply at applied ⊢
  split at applied
  · cases applied
  · exact Nat.add_right_comm s.store.commits 1 s.store.aborts

theorem counted_apply_error {writes : WriteSet} {e : Error} (failed : (s.store.apply writes).1 = .error e) :
    (s.answer (.apply writes)).2.counted = s.counted := by
  change (s.store.apply writes).2.commits + (s.store.apply writes).2.aborts = s.counted
  unfold Store.apply at failed ⊢
  split at failed
  · rfl
  · cases failed

theorem rests_around_install {owner : TxnId} {id : RecordId} {timeout : Option Duration} {existing : Bool}
    (unknown : s.store.locks.table.owners[id]? ≠ some owner)
    (free : s.store.locks.table.owners[id]? = none ∨ s.store.locks.table.owners[id]? = some owner)
    (owners : ∀ x : RecordId, (s.acquire owner id timeout existing).2.store.locks.table.owners[x]? =
      if x = id then some owner else s.store.locks.table.owners[x]?) (expected : Version) (balance : Amount) :
    s.Rests (((s.acquire owner id timeout existing).2.onStore (·.install id expected balance)).2.onLocks
      (·.release owner id)) := by
  obtain ⟨locks,clock,acquired,quiet⟩ := s.exists_acquire_eq owner id timeout existing
  rw [acquired] at owners ⊢
  let between : Ledger := { s with store := { s.store with locks }, clock }
  have kept : (between.onStore (·.install id expected balance)).2.store.locks = locks :=
    Store.locks_install between.store id expected balance
  refine ⟨fun x => ?_,fun none => ?_,?_,?_⟩
  · change ((between.onStore (·.install id expected balance)).2.store.locks.table.release owner id).owners[x]? = _
    rw [kept,LockTable.release_owners]
    have laid : locks.table.owners[x]? = if x = id then some owner else s.store.locks.table.owners[x]? := owners x
    by_cases same : x = id
    · subst same
      rw [if_pos rfl] at laid
      rw [if_pos ⟨rfl,laid⟩]
      exact (free.resolve_right unknown).symm
    · rw [if_neg same] at laid
      rw [if_neg fun own => same own.1.symm,laid]
  · change LockManager.Unwaited ((between.onStore (·.install id expected balance)).2.store.locks.release owner id)
    rw [kept]
    exact (quiet none).release owner id
  · exact counted_install between id expected balance
  · change s.store.nextTxn ≤ (between.store.install id expected balance).2.nextTxn
    rw [Store.nextTxn_install]

end Ledger

theorem Optimistic.alone_rests (s : Ledger)
    (fresh : ∀ x : RecordId, s.store.locks.table.owners[x]? ≠ some s.store.nextTxn) (id : RecordId)
    (expected : Version) (balance : Amount) :
    (conditionalUpdate id expected balance : Procedure Unit Record).Obeys Rule.alone
      (fun _ _ left => s.Rests left) () s := by
  have checked := s.rests_checkFault "conditional_update"
  have next := (s.store_checkFault "conditional_update").2.1
  simp only [conditionalUpdate,obeys_bind,obeys_perform,obeys_ofError]
  cases answered : (s.checkFault "conditional_update").1 with
  | error e => exact Rule.alone_of_reply answered checked
  | ok _ =>
    refine Rule.alone_of_reply answered ?_
    change Rule.alone (.lookup id) _ (s.checkFault "conditional_update").2
    generalize (s.checkFault "conditional_update").2 = s₁ at checked next
    refine Rule.alone_of_reply rfl ?_
    rw [obeys_ite]
    split
    · exact checked
    · simp only [obeys_bind,obeys_perform,obeys_ofOutcome]
      refine Rule.alone_of_reply rfl ?_
      let s₂ := (s₁.onStore Store.allocate).2
      have begun : s.Rests s₂ := checked.trans ⟨fun _ => rfl,fun none => none,rfl,Nat.le_succ _⟩
      have unknown : s₂.store.locks.table.owners[id]? ≠ some s₁.store.nextTxn := by
        rw [begun.owners,next]
        exact fresh id
      obtain ⟨_,⟨granted,free,owners⟩ | ⟨⟨e,refused⟩,owners⟩⟩ :=
        s₂.acquire_cases s₁.store.nextTxn id none false
      · refine Rule.alone_of_reply granted ?_
        exact begun.trans (Ledger.rests_around_install unknown free owners expected balance)
      · exact Rule.alone_of_reply refused (begun.trans (Ledger.rests_acquire_of_refused owners))

namespace Transaction

/-- It has ended, and not by a commit of nothing. -/
def isCounted (t : Transaction) : Bool := !t.isActive && !(t.status = .committed && t.isReadOnly)

variable {s left : Ledger} {t after : Transaction}

theorem isCounted_of_active (active : t.status = .active) : t.isCounted = false := by
  simp [isCounted,isActive,active]

theorem isCounted_of_aborted {reason : String} (aborted : t.status = .aborted reason) : t.isCounted = true := by
  simp [isCounted,isActive,aborted]

theorem isCounted_of_committed (committed : t.status = .committed) :
    t.isCounted = !t.writes.isEmpty := by
  simp [isCounted,isActive,isReadOnly,committed]

/-- Its notes cover the locks that it holds, and end with it. -/
structure Sound (s : Ledger) (t : Transaction) : Prop where
  noted : ∀ x : RecordId, s.store.locks.table.owners[x]? = some t.id → x ∈ t.held
  emptied : t.status ≠ .active → t.held = []

theorem Sound.of_rests (sound : t.Sound s) (rests : s.Rests left) : t.Sound left :=
  ⟨fun x owned => sound.noted x (by rwa [rests.owners] at owned),sound.emptied⟩

theorem Sound.active_of_owned (sound : t.Sound s) {x : RecordId}
    (owned : s.store.locks.table.owners[x]? = some t.id) : t.status = .active ∧ x ∈ t.held := by
  have noted := sound.noted x owned
  refine ⟨Decidable.not_not.mp fun ended => ?_,noted⟩
  rw [sound.emptied ended] at noted
  cases noted

structure Behaves (s : Ledger) (t after : Transaction) (left : Ledger) : Prop where
  named : after.id = t.id
  settled : t.status ≠ .active → after.status = t.status
  next : left.store.nextTxn = s.store.nextTxn
  others : ∀ (x : RecordId) (b : TxnId), b ≠ t.id →
    (left.store.locks.table.owners[x]? = some b ↔ s.store.locks.table.owners[x]? = some b)
  unwaited : s.store.locks.Unwaited → left.store.locks.Unwaited
  sound : t.Sound s → after.Sound left
  counted : left.counted + t.isCounted.toNat = s.counted + after.isCounted.toNat

theorem Behaves.refl (s : Ledger) (t : Transaction) : t.Behaves s t s :=
  ⟨rfl,fun _ => rfl,rfl,fun _ _ _ => Iff.rfl,fun none => none,fun sound => sound,rfl⟩

theorem behaves_of_releaseAll (locks : left.store.locks = s.store.locks.releaseAll t.id t.held)
    (held : after.held = []) (named : after.id = t.id) (settled : t.status ≠ .active → after.status = t.status)
    (next : left.store.nextTxn = s.store.nextTxn)
    (counted : left.counted + t.isCounted.toNat = s.counted + after.isCounted.toNat) :
    t.Behaves s after left := by
  have owners : ∀ x : RecordId, left.store.locks.table.owners[x]? =
      if x ∈ t.held ∧ s.store.locks.table.owners[x]? = some t.id then none
      else s.store.locks.table.owners[x]? := by
    intro x
    rw [locks]
    exact LockTable.releaseAll_owners t.held x
  refine ⟨named,settled,next,fun x b other => LockTable.other_of_freed owners x other,?_,?_,counted⟩
  · intro none
    rw [locks]
    exact none.releaseAll t.id t.held
  · refine fun sound => ⟨fun x owned => ?_,fun _ => held⟩
    rw [named] at owned
    exact absurd owned (LockTable.not_owner_of_freed owners (sound.noted x))

end Transaction

namespace Session

open Transaction

variable {s left : Ledger} {t after : Transaction} {answer : Outcome Unit}

theorem behaves_read (s : Ledger) (t : Transaction) (id : RecordId) :
    (read id).Obeys Rule.alone (fun _ after left => t.Behaves s after left) t s := by
  refine (alone_reads s t id).mono Rule.alone_monotone fun answer after left same => ?_
  obtain ⟨_,rfl,rfl⟩ := same
  exact .refl left after

theorem behaves_write (s : Ledger) (t : Transaction) (id : RecordId) (expected : Version) (balance : Amount) :
    (write id expected balance).Obeys Rule.alone (fun _ after left => t.Behaves s after left) t s := by
  refine (alone_stages s t id expected balance).mono Rule.alone_monotone fun answer after left ends => ?_
  obtain ⟨rfl,⟨_,_,_,rfl⟩ | ⟨seen,_,staged⟩⟩ := ends
  · exact .refl left after
  · by_cases active : t.status = .active
    · obtain ⟨writes,same⟩ := stage_eq t seen expected balance
      obtain rfl : after = { t with writes } := (congrArg Prod.snd staged).trans same
      refine ⟨rfl,fun ended => absurd active ended,rfl,fun _ _ _ => Iff.rfl,fun none => none,?_,?_⟩
      · exact fun sound => ⟨sound.noted,sound.emptied⟩
      · rw [isCounted_of_active active,isCounted_of_active (t := { t with writes }) active]
    · have same : (t.stage seen expected balance).2 = t := by
        unfold stage
        split
        · rfl
        · next ok => exact absurd (ensureActive_eq_ok.mp ok) active
      obtain rfl : after = t := (congrArg Prod.snd staged).trans same
      exact .refl left after

theorem behaves_lock (s : Ledger) (t : Transaction) (id : RecordId) (timeout : Duration) :
    (lock id timeout).Obeys Rule.alone (fun _ after left => t.Behaves s after left) t s := by
  simp only [lock,ensureActive,obeys_bind,obeys_get,obeys_ofError,obeys_perform,obeys_ofOutcome,obeys_modify]
  cases ok : t.ensureActive with
  | error e => exact .refl s t
  | ok _ =>
    have active := ensureActive_eq_ok.mp ok
    obtain ⟨locks,clock,acquired,quiet⟩ := s.exists_acquire_eq t.id id (some timeout) true
    obtain ⟨_,⟨granted,free,owners⟩ | ⟨⟨e,refused⟩,owners⟩⟩ := s.acquire_cases t.id id (some timeout) true
    · refine Rule.alone_of_reply granted ?_
      change t.Behaves s (t.noteAcquired id) (s.acquire t.id id (some timeout) true).2
      rw [acquired] at owners ⊢
      have kept : (t.noteAcquired id).status = t.status := status_noteAcquired
      refine ⟨id_noteAcquired,fun ended => absurd active ended,rfl,fun x b other => ?_,quiet,fun sound => ?_,?_⟩
      · rw [owners]
        split
        · next same =>
          subst same
          refine iff_of_false (fun own => other (Option.some.inj own).symm) fun own => ?_
          rcases free with none | held
          · cases none.symm.trans own
          · exact other (Option.some.inj (own.symm.trans held))
        · rfl
      · refine ⟨fun x owned => ?_,fun ended => absurd (kept.trans active) ended⟩
        rw [mem_noteAcquired,List.mem_cons]
        rw [owners,id_noteAcquired] at owned
        split at owned
        · next same => exact .inl same
        · exact .inr (sound.noted x owned)
      · rw [isCounted_of_active active,isCounted_of_active (kept.trans active)]
        rfl
    · refine Rule.alone_of_reply refused ?_
      change t.Behaves s t (s.acquire t.id id (some timeout) true).2
      have rests := Ledger.rests_acquire_of_refused owners
      refine ⟨rfl,fun _ => rfl,?_,fun x b _ => by rw [rests.owners],rests.unwaited,(·.of_rests rests),?_⟩
      · rw [acquired]
      · rw [rests.counted]

theorem behaves_unlock (s : Ledger) (t : Transaction) (id : RecordId) (noted : Bool) :
    (unlock id noted).Obeys Rule.alone (fun _ after left => t.Behaves s after left) t s := by
  have owners (x : RecordId) : (s.store.locks.table.release t.id id).owners[x]? =
      if id = x ∧ s.store.locks.table.owners[x]? = some t.id then none else s.store.locks.table.owners[x]? :=
    LockTable.release_owners x
  have released (after : Transaction) (named : after.id = t.id) (status : after.status = t.status)
      (writes : after.writes = t.writes) (held : ∀ x, x ∈ t.held → x ≠ id → x ∈ after.held)
      (fewer : ∀ x, x ∈ after.held → x ∈ t.held) :
      t.Behaves s after (s.onLocks (·.release t.id id)) := by
    refine ⟨named,fun _ => status,rfl,fun x b other => LockTable.other_of_freed owners x other,
      fun none => none.release t.id id,fun sound => ⟨fun x owned => ?_,fun ended => ?_⟩,?_⟩
    · change (s.store.locks.table.release t.id id).owners[x]? = some after.id at owned
      rw [owners,named] at owned
      split at owned
      · cases owned
      · next other => exact held x (sound.noted x owned) fun same => other ⟨same.symm,owned⟩
    · rw [status] at ended
      rw [List.eq_nil_iff_forall_not_mem]
      intro x member
      have before := fewer x member
      rw [sound.emptied ended] at before
      cases before
    · unfold isCounted isActive isReadOnly
      rw [status,writes]
      rfl
  simp only [unlock,obeys_bind,obeys_get,obeys_perform,obeys_ite,obeys_modify]
  unfold Rule.alone
  dsimp only
  split
  · refine released _ rfl rfl rfl (fun x member other => ?_) fun x member => (List.mem_filter.mp member).1
    exact List.mem_filter.mpr ⟨member,by simpa using other⟩
  · exact released t rfl rfl rfl (fun x member _ => member) fun x member => member

theorem alone_abort_ended (ended : t.status ≠ .active) (reason : String) (s : Ledger) :
    (abort reason).Obeys Rule.alone
      (fun answer after left => answer = .ok () ∧ after = t.emptyHanded ∧ left = s.giveBack t) t s := by
  have inactive : ¬ t.isActive = true := mt isActive_iff.mp ended
  simp only [abort,releaseHeld,obeys_bind,obeys_get,obeys_ite,if_neg inactive,obeys_perform,obeys_set]
  exact ⟨trivial,rfl,rfl⟩

theorem behaves_abort (s : Ledger) (t : Transaction) (reason : String) :
    (abort reason).Obeys Rule.alone (fun _ after left => t.Behaves s after left) t s := by
  by_cases active : t.status = .active
  · refine (alone_abort active reason s).mono Rule.alone_monotone fun answer after left ends => ?_
    obtain ⟨_,rfl,rfl⟩ := ends
    refine behaves_of_releaseAll rfl rfl rfl (fun ended => absurd active ended) rfl ?_
    rw [isCounted_of_active active,isCounted_of_aborted (t := (t.markAborted reason).emptyHanded) rfl]
    rfl
  · refine (alone_abort_ended active reason s).mono Rule.alone_monotone fun answer after left ends => ?_
    obtain ⟨_,rfl,rfl⟩ := ends
    exact behaves_of_releaseAll rfl rfl rfl (fun _ => rfl) rfl rfl

namespace Commits

theorem nextTxn_eq (commits : Commits s t answer after left) : left.store.nextTxn = s.store.nextTxn := by
  have checked : s.afterCheck.store.nextTxn = s.store.nextTxn := (s.store_checkFault "commit").2.1
  cases commits with
  | ended | readOnly => rfl
  | fault => exact checked
  | refused | applied => exact (Store.nextTxn_apply _ _).trans checked

theorem settled (commits : Commits s t answer after left) (ended : t.status ≠ .active) :
    after.status = t.status := by
  cases commits with
  | ended => rfl
  | readOnly active | fault active | refused active | applied active => exact absurd active ended

theorem counted_eq (commits : Commits s t answer after left) :
    left.counted + t.isCounted.toNat = s.counted + after.isCounted.toNat := by
  have checked : s.afterCheck.counted = s.counted := (s.rests_checkFault "commit").counted
  cases commits with
  | ended => rfl
  | readOnly active nothing =>
    rw [isCounted_of_active active,isCounted_of_committed (t := t.markCommitted.emptyHanded) rfl]
    change s.counted + 0 = s.counted + (!t.writes.isEmpty).toNat
    rw [nothing]
    rfl
  | @fault e active =>
    rw [isCounted_of_active active,isCounted_of_aborted (t := (t.markAborted e.message).emptyHanded) rfl,← checked]
    rfl
  | @refused e active pending spared invalid =>
    rw [isCounted_of_active active,isCounted_of_aborted (t := (t.markAborted e.message).emptyHanded) rfl,
      ← checked,← Ledger.counted_apply_error invalid]
    rfl
  | applied active pending spared valid =>
    rw [isCounted_of_active active,isCounted_of_committed (t := t.markCommitted.emptyHanded) rfl]
    change (s.afterCheck.answer (.apply t.writes)).2.counted + 0 = s.counted + (!t.writes.isEmpty).toNat
    rw [pending,Ledger.counted_apply_ok valid,checked]
    rfl

end Commits

theorem behaves_commit (s : Ledger) (t : Transaction) :
    commit.Obeys Rule.alone (fun _ after left => t.Behaves s after left) t s := by
  refine (alone_commits s t).mono Rule.alone_monotone fun answer after left commits => ?_
  have named : after.id = t.id := by cases commits <;> rfl
  exact behaves_of_releaseAll commits.locks_eq commits.held_eq_nil named commits.settled commits.nextTxn_eq
    commits.counted_eq

end Session

end VersionedLedger

import VersionedLedger.Proofs.Store.Commit

/-! Requests for locks that nobody else has, while others may hold any other locks. Each of them is granted if its
record exists, so a list of them goes as far as the first record that is missing. -/
namespace VersionedLedger

open Procedure

namespace LockTable

variable {t : LockTable} {owner : TxnId} {id : RecordId}

theorem heldByOther_eq_false : t.heldByOther owner id = false ↔ ∀ b, t.owners[id]? = some b → b = owner := by
  unfold heldByOther
  cases t.owners[id]? <;> simp

end LockTable

/-- Records and faults are as known, and of the locks that are listed nobody else has any. -/
structure Store.Open (s : Store) (V : View) (f : Faults) (owner : TxnId) (ids : List RecordId) : Prop where
  view : s.view = V
  faults : s.faults = f
  free : ∀ id ∈ ids, s.locks.table.heldByOther owner id = false

variable {s : Ledger} {V : View} {f : Faults} {owner : TxnId} {id : RecordId} {ids : List RecordId}

namespace Ledger

theorem acquire_of_missing (opened : s.store.Open V f owner ids) (missing : V id = none) (timeout : Option Duration) :
    s.acquire owner id timeout true = (.error (.error (.notFound id)), s) := by
  have unknown : s.store.contains id = false := by rw [Store.contains_eq,opened.view,missing]; rfl
  unfold acquire
  rw [unknown]
  rfl

theorem acquire_of_open (opened : s.store.Open V f owner (id :: ids)) {r : Record} (here : V id = some r)
    (timeout : Option Duration) : (s.acquire owner id timeout true).1 = .ok () ∧
      (s.acquire owner id timeout true).2.store.Open V f owner ids := by
  obtain ⟨free,rest⟩ := List.forall_mem_cons.mp opened.free
  rw [LockTable.heldByOther_eq_false] at free
  obtain ⟨locks,granted,owners⟩ := s.acquire_of_free opened.view here free timeout true
  rw [granted]
  refine ⟨rfl,opened.view,opened.faults,fun x member => ?_⟩
  rw [LockTable.heldByOther_eq_false]
  intro b owned
  rw [owners] at owned
  split at owned
  · cases owned
    rfl
  · exact LockTable.heldByOther_eq_false.mp (rest x member) b owned

end Ledger

theorem Rule.alone_keeps_shown : Rule.alone.Keeps (Call.gives owner) fun s : Ledger =>
    s.store.view = V ∧ s.store.faults = f := by
  intro c gives promise s known replied
  cases c with
  | release | releaseAll | countAbort => exact replied () _ known
  | _ => cases gives

namespace Locking

variable {t : Transaction}

theorem alone_acquire_open (l : Locking) (active : t.ensureActive = .ok ())
    (opened : s.store.Open V f t.id (id :: ids)) : (l.acquire id).Obeys Rule.alone (fun answer after left =>
      (V id = none → answer = .error (.error (.notFound id)) ∧ left.store.Open V f t.id []) ∧
      (∀ r, V id = some r → answer = .ok () ∧ after = t.noteAcquired id ∧ left.store.Open V f t.id ids)) t s := by
  simp only [acquire,Session.lock,Session.ensureActive,obeys_bind,obeys_outcome,obeys_get,obeys_ofError,
    obeys_perform,obeys_ofOutcome,obeys_modify,active]
  cases here : V id with
  | none =>
    have missed : s.answer (.acquire t.id id (some l.timeout) true) = (.error (.error (.notFound id)), s) :=
      s.acquire_of_missing opened here (some l.timeout)
    unfold Rule.alone
    rw [missed]
    refine (Obeys.of_only Rule.alone_keeps_shown (gives_releasePartial_fail (.notFound id))
      ⟨opened.view,opened.faults⟩).mono Rule.alone_monotone fun answer after left ended => ?_
    obtain ⟨⟨rfl,_⟩,view,faults⟩ := ended
    refine ⟨fun _ => ⟨rfl,view,faults,List.forall_mem_nil _⟩,fun r found => ?_⟩
    cases found
  | some r =>
    obtain ⟨granted,left⟩ := s.acquire_of_open opened here (some l.timeout)
    refine Rule.alone_of_reply granted ⟨fun missing => ?_,fun _ _ => ⟨rfl,rfl,left⟩⟩
    cases missing

theorem alone_acquireAll_open (l : Locking) (active : t.ensureActive = .ok ()) (clean : t.writes = ∅)
    (opened : s.store.Open V f t.id ids) : (l.acquireAll ids).Obeys Rule.alone (fun answer after left =>
      left.store.Open V f t.id [] ∧ match ids.find? fun x => (V x).isNone with
        | some id => answer = .error (.error (.notFound id))
        | none => answer = .ok () ∧ after.ensureActive = .ok () ∧ after.writes = ∅) t s := by
  let missed (ids : List RecordId) : Option RecordId := ids.find? fun x => (V x).isNone
  let kept (rest : List RecordId) (after : Transaction) (left : Ledger) : Prop :=
    after.id = t.id ∧ after.ensureActive = .ok () ∧ after.writes = ∅ ∧ left.store.Open V f t.id rest ∧
      missed ids = missed rest
  have start : kept ids t s := ⟨rfl,active,clean,opened,rfl⟩
  refine l.obeys_acquireAll Rule.alone_monotone (fun id rest after left before => ?_)
    (fun rest after left before => before) (fun after left before => ?_) start
  · obtain ⟨same,active,clean,opened,same_missed⟩ := before
    rw [← same] at opened
    refine (l.alone_acquire_open active opened).mono Rule.alone_monotone fun answer after' left ended => ?_
    obtain ⟨missing,present⟩ := ended
    cases here : V id with
    | none =>
      obtain ⟨rfl,left_open⟩ := missing here
      have named : missed ids = some id := by simp [same_missed,missed,here]
      refine ⟨fun e refused => ⟨same ▸ left_open,?_⟩,fun granted => ?_⟩
      · change match missed ids with | some id => _ | none => _
        rw [named]
      · cases granted
    | some r =>
      obtain ⟨rfl,rfl,left_open⟩ := present r here
      refine ⟨fun e refused => ?_,fun _ => ⟨?_,?_,?_,same ▸ left_open,?_⟩⟩
      · cases refused
      · rw [Transaction.id_noteAcquired,same]
      · rw [Transaction.ensureActive_noteAcquired,active]
      · rw [Transaction.writes_noteAcquired,clean]
      · simp [same_missed,missed,here]
  · obtain ⟨_,active,clean,opened,none_missed⟩ := before
    refine ⟨opened,?_⟩
    change match missed ids with | some id => _ | none => _
    rw [none_missed]
    exact ⟨rfl,active,clean⟩

end Locking

end VersionedLedger

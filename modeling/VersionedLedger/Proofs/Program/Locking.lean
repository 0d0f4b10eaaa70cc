import VersionedLedger.Transfer.Receipt
import VersionedLedger.Proofs.Ledger.Answer
import VersionedLedger.Proofs.Program.Obeys

/-! Transactions under several locks, by any rule for their calls. A list of locks is taken request by
request, so what every granted request keeps is kept by the list; a transaction that ends without a commit
only gives back what it has. -/
namespace VersionedLedger

open Procedure

variable {G α : Type}

namespace Call

def asks : Call → Bool
  | acquire .. => true
  | _ => false

def yields : Call → Bool
  | release .. | releaseAll .. | countAbort => true
  | _ => false

def gives (owner : TxnId) : Call → Bool
  | release a _ | releaseAll a _ => a = owner
  | countAbort => true
  | _ => false

/-- Locks are asked for or given back, with rests between the requests. -/
def locks : Call → Bool
  | acquire .. | sleep _ false | release .. | releaseAll .. | countAbort => true
  | _ => false

theorem asks_not_of_yields {c : Call} (gives : c.yields = true) : (!c.asks) = true := by
  cases c <;> first | rfl | cases gives

theorem quiet_of_yields {c : Call} (gives : c.yields = true) : (!c.writes) = true := by
  cases c <;> first | rfl | cases gives

theorem yields_of_gives {c : Call} {owner : TxnId} (gives : c.gives owner = true) : c.yields = true := by
  cases c <;> first | rfl | cases gives

theorem locks_of_yields {c : Call} (gives : c.yields = true) : c.locks = true := by
  cases c <;> first | rfl | cases gives

theorem quiet_of_locks {c : Call} (locks : c.locks = true) : (!c.writes) = true := by
  cases c <;> first | rfl | cases locks

end Call

theorem Procedure.yields_of_gives {σ : Type} {p : Procedure σ α} {goal : Outcome α → σ → Prop} {owner : TxnId}
    {s : σ} (gives : p.Obeys (Rule.only (Call.gives owner)) (fun answer s _ => goal answer s) s ()) :
    p.Obeys (Rule.only Call.yields) (fun answer s _ => goal answer s) s () := by
  have keeps : (Rule.only Call.yields).Keeps (Call.gives owner) fun _ => True :=
    fun c allowed promise g _ replied => ⟨Call.yields_of_gives allowed,fun r => replied r g trivial⟩
  exact (Obeys.of_only keeps gives trivial).mono (Rule.only_monotone _) fun _ _ _ ended => ended.1

namespace Session

variable {t : Transaction}

theorem gives_releaseHeld :
    releaseHeld.Obeys (Rule.only (Call.gives t.id)) (fun answer _ _ => answer = .ok ()) t () := by
  simp [releaseHeld,Rule.only,Call.gives,Transaction.takeHeld]

theorem gives_abort (reason : String) :
    (abort reason).Obeys (Rule.only (Call.gives t.id)) (fun answer _ _ => answer = .ok ()) t () := by
  simp [abort,releaseHeld,Rule.only,Call.gives,Transaction.takeHeld,Transaction.markAborted,obeys_ite]

theorem gives_abort_fail (e : Error) : (abort e.message >>= fun _ => fail e : Session α).Obeys
    (Rule.only (Call.gives t.id)) (fun answer _ _ => answer = .error (.error e)) t () := by
  rw [obeys_bind]
  refine (gives_abort e.message).mono (Rule.only_monotone _) fun answer t _ ended => ?_
  rw [ended]
  rfl

theorem gives_conclude_error (e : Failure) : (conclude (.error e : Outcome α)).Obeys
    (Rule.only (Call.gives t.id)) (fun answer _ _ => answer = .error e) t () := by
  cases e with
  | error e => exact gives_abort_fail e
  | crash c =>
    simp only [conclude,obeys_bind,obeys_get,obeys_ite]
    split
    · refine (gives_abort _).mono (Rule.only_monotone _) fun answer t _ ended => ?_
      rw [ended]
      rfl
    · rfl

theorem yields_releaseHeld :
    releaseHeld.Obeys (Rule.only Call.yields) (fun answer _ _ => answer = .ok ()) t () :=
  yields_of_gives gives_releaseHeld

theorem yields_abort_fail (e : Error) : (abort e.message >>= fun _ => fail e : Session α).Obeys
    (Rule.only Call.yields) (fun answer _ _ => answer = .error (.error e)) t () :=
  yields_of_gives (gives_abort_fail e)

theorem yields_conclude_error (e : Failure) : (conclude (.error e : Outcome α)).Obeys
    (Rule.only Call.yields) (fun answer _ _ => answer = .error e) t () :=
  yields_of_gives (gives_conclude_error e)

end Session

namespace Transaction

variable {t : Transaction} {id x : RecordId}

@[simp] theorem id_noteAcquired : (t.noteAcquired id).id = t.id := by
  unfold noteAcquired
  split <;> rfl

@[simp] theorem writes_noteAcquired : (t.noteAcquired id).writes = t.writes := by
  unfold noteAcquired
  split <;> rfl

@[simp] theorem ensureActive_noteAcquired : (t.noteAcquired id).ensureActive = t.ensureActive := by
  unfold noteAcquired
  split <;> rfl

theorem id_of_view {r seen : Record} (viewed : t.view r = .ok seen) : seen.id = r.id := by
  unfold view at viewed
  split at viewed
  · unfold StagedWrite.version? Version.add? at viewed
    split at viewed
    · cases viewed
      rfl
    · cases viewed
  · cases viewed
    rfl

theorem mem_noteAcquired : x ∈ (t.noteAcquired id).held ↔ x ∈ id :: t.held := by
  unfold noteAcquired
  split
  · next present =>
    rw [List.mem_cons]
    exact ⟨.inr,fun either => either.elim (fun same => same ▸ present) fun member => member⟩
  · simp [or_comm]

end Transaction

namespace Locking

theorem mem_insertAscending {id x : RecordId} {ids : List RecordId} :
    x ∈ insertAscending id ids ↔ x = id ∨ x ∈ ids := by
  induction ids with
  | nil => simp [insertAscending]
  | cons first rest ih =>
    unfold insertAscending
    split
    · simp
    · split
      · next same => simp [same]
      · simp [ih,or_left_comm]

theorem mem_ascending {x : RecordId} {ids : List RecordId} : x ∈ ascending ids ↔ x ∈ ids := by
  induction ids with
  | nil => rfl
  | cons id ids ih =>
    rw [List.mem_cons,← ih]
    exact mem_insertAscending

theorem pairwise_insertAscending {id : RecordId} {ids : List RecordId}
    (ascending : ids.Pairwise (· < ·)) : (insertAscending id ids).Pairwise (· < ·) := by
  induction ids with
  | nil => exact List.pairwise_singleton _ _
  | cons first rest ih =>
    obtain ⟨above,tail⟩ := List.pairwise_cons.mp ascending
    unfold insertAscending
    split
    · next below =>
      refine List.pairwise_cons.mpr ⟨fun x member => ?_,ascending⟩
      rcases List.mem_cons.mp member with rfl | later
      · exact below
      · exact Nat.lt_trans below (above x later)
    · split
      · exact ascending
      · next not_below differ =>
        refine List.pairwise_cons.mpr ⟨fun x member => ?_,ih tail⟩
        rcases mem_insertAscending.mp member with rfl | later
        · exact Nat.lt_of_le_of_ne (Nat.not_lt.mp not_below) (Ne.symm differ)
        · exact above x later

theorem pairwise_ascending (ids : List RecordId) : (ascending ids).Pairwise (· < ·) := by
  induction ids with
  | nil => exact .nil
  | cons id ids ih => exact pairwise_insertAscending ih

theorem gives_releasePartial_fail {t : Transaction} (e : Error) :
    (releasePartial >>= fun _ => fail e : Session Unit).Obeys (Rule.only (Call.gives t.id))
      (fun answer after _ => answer = .error (.error e) ∧ after.id = t.id) t () := by
  simp only [releasePartial,obeys_bind,obeys_get,obeys_set]
  refine (obeys_forIn (Rule.only_monotone _) (fun after _ => after.id = t.id) _ _ ?_ rfl).mono
    (Rule.only_monotone _) fun answer t _ ended => ?_
  · intro id _ t' _ same
    simp only [obeys_bind,obeys_perform,obeys_pure]
    exact ⟨by simp [Call.gives,Transaction.takeHeld],fun _ => ⟨trivial,same⟩⟩
  · rw [ended.1]
    exact ⟨rfl,ended.2⟩

variable {rule : Rule G} {goal : Outcome Unit → Transaction → G → Prop} {t : Transaction} {g : G}

theorem obeys_acquire (l : Locking) {id : RecordId} (monotone : rule.Monotone) {known : G → Prop}
    (keeps : rule.Keeps (Call.gives t.id) known) (inactive : t.ensureActive ≠ .ok () → known g)
    (refused : ∀ e after g, after.id = t.id → known g → goal (.error e) after g)
    (asked : t.ensureActive = .ok () → rule (.acquire t.id id (some l.timeout) true)
      (fun r g => (r = .ok () → goal (.ok ()) (t.noteAcquired id) g) ∧ (r ≠ .ok () → known g)) g) :
    (l.acquire id).Obeys rule goal t g := by
  have refuses (e : Error) {g : G} (start : known g) :
      (releasePartial >>= fun _ => fail e : Session Unit).Obeys rule goal t g := by
    refine (Obeys.of_only keeps (gives_releasePartial_fail e) start).mono monotone ?_
    intro answer t g ended
    obtain ⟨⟨rfl,same⟩,known⟩ := ended
    exact refused _ t g same known
  simp only [acquire,Session.lock,Session.ensureActive,obeys_bind,obeys_outcome,obeys_get,obeys_ofError,
    obeys_perform,obeys_ofOutcome,obeys_modify]
  cases active : t.ensureActive with
  | error e => exact refuses e (inactive (by simp [active]))
  | ok _ =>
    refine monotone _ _ _ g (fun r g ended => ?_) (asked active)
    rcases r with (e | c) | _
    · exact refuses e (ended.2 (by simp))
    · exact refused _ t g rfl (ended.2 (by simp))
    · exact ended.1 rfl

variable {kept : List RecordId → Transaction → G → Prop}

private theorem obeys_acquireRest (l : Locking) (monotone : rule.Monotone)
    (request : ∀ id ids t g, kept (id :: ids) t g → (l.acquire id).Obeys rule (fun answer t g =>
      (∀ e, answer = .error e → goal answer t g) ∧ (answer = .ok () → kept ids t g)) t g)
    (rest : ∀ ids t g, kept ids t g → rule (.sleep l.pause false) (fun _ g => kept ids t g) g)
    (last : ∀ t g, kept [] t g → goal (.ok ()) t g) (ids : List RecordId) (start : kept ids t g) :
    (l.acquireRest ids).Obeys rule goal t g := by
  induction ids generalizing t g with
  | nil => exact last t g start
  | cons id ids ih =>
    have onward {g : G} (start : kept (id :: ids) t g) :
        (l.acquire id >>= fun _ => l.acquireRest ids : Session Unit).Obeys rule goal t g := by
      rw [obeys_bind]
      refine (request id ids t g start).mono monotone fun answer t g ended => ?_
      cases answer with
      | error e => exact ended.1 e rfl
      | ok _ => exact ih (ended.2 rfl)
    unfold acquireRest
    dsimp only
    rw [obeys_ite]
    split
    · rw [obeys_bind,obeys_perform]
      exact monotone _ _ _ g (fun _ g start => onward start) (rest _ t g start)
    · exact onward start

theorem obeys_acquireAll (l : Locking) (monotone : rule.Monotone)
    (request : ∀ id ids t g, kept (id :: ids) t g → (l.acquire id).Obeys rule (fun answer t g =>
      (∀ e, answer = .error e → goal answer t g) ∧ (answer = .ok () → kept ids t g)) t g)
    (rest : ∀ ids t g, kept ids t g → rule (.sleep l.pause false) (fun _ g => kept ids t g) g)
    (last : ∀ t g, kept [] t g → goal (.ok ()) t g) {ids : List RecordId} (start : kept ids t g) :
    (l.acquireAll ids).Obeys rule goal t g := by
  cases ids with
  | nil => exact last t g start
  | cons id ids =>
    unfold acquireAll
    rw [obeys_bind]
    refine (request id ids t g start).mono monotone fun answer t g ended => ?_
    cases answer with
    | error e => exact ended.1 e rfl
    | ok _ => exact l.obeys_acquireRest monotone request rest last ids (ended.2 rfl)

variable {known : G → Prop}

private theorem keeps_acquire (l : Locking) {id : RecordId} (monotone : rule.Monotone)
    (keeps : rule.Keeps Call.locks known) (start : known g) :
    (l.acquire id).Obeys rule (fun answer after g => known g ∧ (answer = .ok () → after.writes = t.writes)) t g := by
  refine l.obeys_acquire monotone (keeps.narrow fun _ => Call.locks_of_yields ∘ Call.yields_of_gives)
    (fun _ => start) (fun e after g _ start => ⟨start,fun granted => ?_⟩) fun _ => ?_
  · cases granted
  · exact keeps _ rfl _ g start fun r g start => ⟨fun _ => ⟨start,fun _ => Transaction.writes_noteAcquired⟩,fun _ => start⟩

theorem keeps_acquireAll (l : Locking) {ids : List RecordId} (monotone : rule.Monotone)
    (keeps : rule.Keeps Call.locks known) (start : known g) : (l.acquireAll ids).Obeys rule
      (fun answer after g => known g ∧ (answer = .ok () → after.writes = t.writes)) t g := by
  let kept (_ : List RecordId) (after : Transaction) (g : G) : Prop := known g ∧ after.writes = t.writes
  have begins : kept ids t g := ⟨start,rfl⟩
  refine l.obeys_acquireAll monotone (fun id ids after g before => ?_) (fun ids after g before => ?_)
    (fun after g before => ⟨before.1,fun _ => before.2⟩) begins
  · refine (l.keeps_acquire monotone keeps before.1).mono monotone fun answer after g ended => ?_
    obtain ⟨start,same⟩ := ended
    refine ⟨fun e refused => ⟨start,fun granted => ?_⟩,fun granted => ⟨start,(same granted).trans before.2⟩⟩
    cases refused.symm.trans granted
  · exact keeps _ rfl _ g before.1 fun r g start => ⟨start,before.2⟩

end Locking

end VersionedLedger

import VersionedLedger.Proofs.Pool.Dialogue
import VersionedLedger.Proofs.Program.Calls
import VersionedLedger.Proofs.Program.Counted
import VersionedLedger.Proofs.Program.Held

/-! What an operation can fail with, given that a ledger replies to it. Apart from a retry loop nothing fails with an
error of a retry loop, and nobody is picked to break a cycle where no request is refused. -/
namespace VersionedLedger

open Procedure

variable {σ α β : Type} {refusals : Prop}

/-- Errors that no retry loop has made. A request for a lock may be refused only if there are refusals. -/
def Error.Plain (refusals : Prop) : Error → Prop
  | .deadlock _ => refusals
  | .attemptsExhausted .. | .cancelled _ => False
  | _ => True

/-- It fails with plain errors as long as it is replied what a ledger replies. -/
def Procedure.Plain (refusals : Prop) (p : Procedure σ α) : Prop :=
  ∀ s, p.Obeys (Rule.answered refusals) (fun answer _ _ => ∀ e, answer = .error (.error e) → e.Plain refusals) s ()

theorem Failure.Replied.plain {e : Error} (replied : Failure.Replied refusals (.error e)) : e.Plain refusals := by
  cases replied with
  | refused allowed => exact allowed
  | _ => trivial

theorem Transaction.plain_of_ensureActive {t : Transaction} {e : Error} (ended : t.ensureActive = .error e) :
    e.Plain refusals := by
  unfold ensureActive at ended
  split at ended
  · cases ended
  · cases ended
    trivial
  · cases ended
    trivial

theorem Record.next_ne_error (r : Record) (balance : Amount) (e : Error) : r.next balance ≠ .error (.error e) := by
  unfold next
  cases Version.add? r.version 1 <;> rintro ⟨⟩

theorem Transaction.view_ne_error (t : Transaction) (stored : Record) (e : Error) :
    t.view stored ≠ .error (.error e) := by
  unfold view
  split
  · next staged _ =>
    unfold StagedWrite.version?
    cases Version.add? staged.base staged.writes <;> rintro ⟨⟩
  · rintro ⟨⟩

theorem Transaction.plain_of_stage {t : Transaction} {seen : Record} {expected : Version} {balance : Amount} {e : Error}
    (failed : (t.stage seen expected balance).1 = .error (.error e)) : e.Plain refusals := by
  unfold stage at failed
  split at failed
  · next ended =>
    cases failed
    exact plain_of_ensureActive ended
  · split at failed
    · cases failed
      trivial
    · exact absurd failed (seen.next_ne_error balance e)

theorem Account.plain_of_debit {balance amount : Amount} {e : Error} (refused : debit balance amount = .error e) :
    e.Plain refusals := by
  obtain ⟨reason,rfl⟩ := exists_validation_of_debit refused
  trivial

theorem Account.plain_of_credit {balance amount : Amount} {e : Error} (refused : credit balance amount = .error e) :
    e.Plain refusals := by
  obtain ⟨reason,rfl⟩ := exists_validation_of_credit refused
  trivial

theorem Transfer.plain_of_validate {t : Transfer} {e : Error} (refused : t.validate = .error e) :
    e.Plain refusals := by
  unfold validate at refused
  split at refused
  · cases refused
    trivial
  · split at refused
    · cases refused
      trivial
    · cases refused

theorem Rule.answered_keeps (allowed : Call → Bool) : (Rule.answered refusals).Keeps allowed fun _ => True :=
  fun _ _ _ g _ replied r _ => replied r g trivial

namespace Procedure

variable {p : Procedure σ α}

theorem Plain.bind {f : α → Procedure σ β} (first : p.Plain refusals) (rest : ∀ a, (f a).Plain refusals) :
    (p >>= f).Plain refusals := by
  intro s
  refine (obeys_bind _ p f).mpr ((first s).mono (Rule.answered_monotone _) fun answer s _ plain => ?_)
  cases answer with
  | error e => rintro e' ⟨⟩; exact plain e' rfl
  | ok a => exact rest a s

theorem plain_ofOutcome {given : Outcome α} (errs : ∀ e, given = .error (.error e) → e.Plain refusals) :
    (ofOutcome given : Procedure σ α).Plain refusals := fun _ => errs

theorem plain_ofError {given : Except Error α} (errs : ∀ e, given = .error e → e.Plain refusals) :
    (ofError given : Procedure σ α).Plain refusals := by
  refine plain_ofOutcome fun e failed => ?_
  cases given with
  | ok a => cases failed
  | error e => cases failed; exact errs e rfl

theorem plain_pure (a : α) : (pure a : Procedure σ α).Plain refusals := fun _ _ failed => by cases failed

theorem plain_fail {e : Error} (plain : e.Plain refusals) : (fail e : Procedure σ α).Plain refusals :=
  fun _ e' failed => by cases failed; exact plain

theorem plain_perform_bind (c : Call) {f : c.Reply → Procedure σ β}
    (rest : ∀ r, Made.Answered refusals ⟨c,r⟩ → (f r).Plain refusals) : (perform c >>= f).Plain refusals :=
  fun s => (obeys_bind _ _ f).mpr fun r answered => rest r answered s

theorem plain_outcome_bind {f : Outcome α → Procedure σ β} (inner : p.Plain refusals)
    (rest : ∀ answer, (∀ e, answer = .error (.error e) → e.Plain refusals) → (f answer).Plain refusals) :
    (p.outcome >>= f).Plain refusals := by
  intro s
  rw [obeys_bind,obeys_outcome]
  exact (inner s).mono (Rule.answered_monotone _) fun answer s _ plain => rest answer plain s

theorem plain_within_bind {τ : Type} {q : Procedure τ α} {f : Outcome α × τ → Procedure σ β} (own : τ)
    (inner : q.Plain refusals) (rest : ∀ ended : Outcome α × τ,
      (∀ e, ended.1 = .error (.error e) → e.Plain refusals) → (f ended).Plain refusals) :
    (within own q >>= f).Plain refusals := by
  intro s
  rw [obeys_bind,obeys_within]
  exact (inner own).mono (Rule.answered_monotone _) fun answer own _ plain => rest (answer,own) plain s

theorem plain_of_only {allowed : Call → Bool} {goal : Outcome α → σ → Prop}
    (only : ∀ s, p.Obeys (Rule.only allowed) (fun answer s _ => goal answer s) s ())
    (errs : ∀ e s, goal (.error (.error e)) s → e.Plain refusals) : p.Plain refusals := by
  intro s
  refine (Obeys.of_only (Rule.answered_keeps allowed) (only s) trivial).mono (Rule.answered_monotone _) ?_
  rintro answer s _ ⟨known,_⟩ e rfl
  exact errs e s known

end Procedure

namespace Optimistic

theorem plain_read (id : RecordId) : (read id : Procedure σ Record).Plain refusals := by
  refine plain_perform_bind _ fun found _ => ?_
  cases found with
  | none => exact plain_fail trivial
  | some r => exact plain_pure r

theorem plain_conditionalUpdate (id : RecordId) (expected : Version) (balance : Amount) :
    (conditionalUpdate id expected balance : Procedure σ Record).Plain refusals := by
  refine plain_perform_bind _ fun due checked => ?_
  refine (plain_ofError fun e failed => (checked _ (by rw [failed]; rfl)).plain).bind fun _ => ?_
  refine plain_perform_bind _ fun found _ => ?_
  dsimp only
  split
  · exact plain_fail trivial
  · refine plain_perform_bind _ fun owner _ => plain_perform_bind _ fun granted asked => ?_
    refine (plain_ofOutcome fun e failed => (asked _ (by rw [failed]; rfl)).plain).bind fun _ => ?_
    refine plain_perform_bind _ fun installed written => plain_perform_bind _ fun _ _ => ?_
    exact plain_ofOutcome fun e failed => (written _ (by rw [failed]; rfl)).plain

theorem plain_update (id : RecordId) {mutate : Amount → Procedure σ Amount}
    (computes : ∀ balance, (mutate balance).Plain refusals) : (update id mutate).Plain refusals :=
  (plain_read id).bind fun _ => (computes _).bind fun _ => (plain_conditionalUpdate id _ _).bind fun _ => plain_pure _

theorem plain_debit (id : RecordId) (amount : Amount) : (debit id amount : Procedure σ Update).Plain refusals :=
  plain_update id fun _ => plain_ofError fun _ => Account.plain_of_debit

end Optimistic

namespace Session

theorem plain_ensureActive : ensureActive.Plain refusals := fun t =>
  plain_ofError (fun _ => t.plain_of_ensureActive) t

theorem plain_read (id : RecordId) : (read id).Plain refusals := by
  refine plain_ensureActive.bind fun _ => plain_perform_bind _ fun found _ => ?_
  cases found with
  | none => exact plain_fail trivial
  | some stored => exact fun t e failed => absurd failed (t.view_ne_error stored e)

theorem plain_write (id : RecordId) (expected : Version) (balance : Amount) :
    (write id expected balance).Plain refusals :=
  (plain_read id).bind fun _ _ _ => Transaction.plain_of_stage

theorem plain_abort_fail {e : Error} (plain : e.Plain refusals) :
    (abort e.message >>= fun _ => fail e : Session α).Plain refusals :=
  plain_of_only (fun _ => yields_abort_fail e) fun e' _ failed => by cases failed; exact plain

theorem plain_releaseHeld : releaseHeld.Plain refusals :=
  plain_of_only (fun _ => yields_releaseHeld) fun _ _ failed => by cases failed

theorem plain_commit : commit.Plain refusals := by
  intro t
  simp only [commit,obeys_bind,obeys_get]
  split
  · next ended =>
    exact plain_releaseHeld.bind (fun _ => plain_fail (Transaction.plain_of_ensureActive ended)) t
  · rw [obeys_ite]
    split
    · rw [obeys_bind,obeys_modify]
      exact plain_releaseHeld _
    · refine plain_perform_bind _ (fun due checked => ?_) t
      cases due with
      | error e => exact plain_abort_fail (checked _ rfl).plain
      | ok _ =>
        refine plain_perform_bind _ fun applied written => ?_
        cases applied with
        | error e => exact plain_abort_fail (written _ rfl).plain
        | ok _ => exact fun t => plain_releaseHeld _

theorem plain_conclude {answer : Outcome α} (plain : ∀ e, answer = .error (.error e) → e.Plain refusals) :
    (conclude answer).Plain refusals := by
  cases answer with
  | error failure =>
    exact plain_of_only (fun _ => yields_conclude_error failure) fun e _ failed => by cases failed; exact plain e rfl
  | ok a => exact plain_commit.bind fun _ => plain_pure a

end Session

namespace Locking

variable (l : Locking)

theorem plain_acquire (id : RecordId) : (l.acquire id).Plain refusals := by
  have asks : (Session.lock id l.timeout).Plain refusals := by
    refine Session.plain_ensureActive.bind fun _ t => ?_
    refine plain_perform_bind (.acquire t.id id (some l.timeout) true) (fun granted asked => ?_) t
    refine (plain_ofOutcome fun e failed => (asked _ (by rw [failed]; rfl)).plain).bind fun _ => ?_
    exact fun _ _ failed => by cases failed
  refine plain_outcome_bind asks fun answer plain => ?_
  rcases answer with (e | c) | _
  · have yields (t : Transaction) : (releasePartial >>= fun _ => fail e : Session Unit).Obeys
        (Rule.only Call.yields) (fun answer _ _ => answer = .error (.error e)) t () :=
      yields_of_gives ((gives_releasePartial_fail e).mono (Rule.only_monotone _) fun _ _ _ ended => ended.1)
    exact plain_of_only yields fun e' _ ended => by cases ended; exact plain e rfl
  · exact fun _ _ failed => by cases failed
  · exact plain_pure _

theorem plain_acquireRest (ids : List RecordId) : (l.acquireRest ids).Plain refusals := by
  induction ids with
  | nil => exact plain_pure _
  | cons id ids ih =>
    have goes : (l.acquire id >>= fun _ => l.acquireRest ids).Plain refusals := (l.plain_acquire id).bind fun _ => ih
    unfold acquireRest
    split
    · exact plain_perform_bind _ fun _ _ => goes
    · exact goes

theorem plain_acquireAll (ids : List RecordId) : (l.acquireAll ids).Plain refusals := by
  cases ids with
  | nil => exact plain_pure _
  | cons id ids => exact (l.plain_acquire id).bind fun _ => l.plain_acquireRest ids

theorem plain_run (ids : List RecordId) {body : Session α} (inner : body.Plain refusals) :
    (l.run ids body : Procedure σ α).Plain refusals := by
  refine plain_perform_bind _ fun owner _ => ?_
  refine plain_within_bind _ ?_ fun ended plain => plain_ofOutcome plain
  exact plain_outcome_bind ((l.plain_acquireAll ids).bind fun _ => inner) fun answer plain =>
    Session.plain_conclude plain

end Locking

namespace Transfer

variable (t : Transfer) (l : Locking)

theorem plain_stage : t.stage.Plain refusals :=
  (Session.plain_read t.source).bind fun _ => (Session.plain_read t.target).bind fun _ =>
    (plain_ofError fun _ => Account.plain_of_debit).bind fun _ =>
      (plain_ofError fun _ => Account.plain_of_credit).bind fun _ =>
        (Session.plain_write t.source _ _).bind fun _ => (Session.plain_write t.target _ _).bind fun _ => plain_pure _

theorem plain_ordered : (t.ordered l : Procedure σ Receipt).Plain refusals :=
  (plain_ofError fun _ => t.plain_of_validate).bind fun _ => l.plain_run _ t.plain_stage

end Transfer

theorem RetryPolicy.plain_of_last {p : RetryPolicy} {o : RetryOptions σ α} {operation : Procedure σ α}
    {calls : List Made} {failure : RetryError} {e : Error} {s s' : σ} (plain : operation.Plain refusals)
    (alone : o.fallback = none) (answered : ∀ m ∈ calls, m.Answered refusals)
    (made : (p.run o operation).Makes s calls (.ok (.error failure)) s') (last : failure.last? = some e) :
    e.Plain refusals := by
  obtain ⟨started,marks,splits,loops,_⟩ := exists_marks made
  have unfallen (given : Outcome α) : .fell given ∉ marks :=
    fun member => splits.not_fell alone given (List.mem_cons_of_mem _ member)
  obtain ⟨before,inner,after,ran,among⟩ := splits.exists_run (loops.mem_runs_of_last unfallen last)
  exact (plain before).of_makes ran (fun m member => answered m (among m member)) e rfl

end VersionedLedger

import Mathlib.Data.Finset.Basic
import VersionedLedger.Transfer.Coordinator
import VersionedLedger.Proofs.Program.Locking
import VersionedLedger.Proofs.Program.Retry

/-! Which records an operation has to do with. A transfer looks at its own two records and writes no other one, whatever
it is replied; it only has to be shown records under their own ids. A retry loop goes no further than its operation. -/
namespace VersionedLedger

open Procedure

variable {G σ α β : Type} {ids : Finset RecordId}

namespace Call

/-- No record is looked at but these, and if records are written it is several of these at once. -/
def Confined (ids : Finset RecordId) : Call → Prop
  | lookup id => id ∈ ids
  | install .. => False
  | apply writes => ∀ id, id ∉ ids → writes[id]? = none
  | _ => True

/-- A record that is found has the id that was asked for. -/
def Named : (c : Call) → c.Reply → Prop
  | lookup id, r => ∀ found, r = some found → found.id = id
  | _, _ => True

def blind : Call → Bool
  | lookup _ | install .. | apply _ => false
  | _ => true

theorem blind_of_locks {c : Call} (locks : c.locks = true) : c.blind = true := by
  cases c <;> first | rfl | cases locks

theorem blind_of_aside {c : Call} (aside : c.aside = true) : c.blind = true := by
  cases c <;> first | rfl | cases aside

theorem confined_of_blind {c : Call} (blind : c.blind = true) : c.Confined ids := by
  cases c with
  | lookup | install | apply => cases blind
  | _ => trivial

end Call

def Rule.confining (rule : Rule G) (ids : Finset RecordId) : Rule G :=
  fun c promise g => c.Confined ids ∧ rule c (fun r g => c.Named r → promise r g) g

def Rule.confined (ids : Finset RecordId) : Rule Unit := Rule.confining (Rule.only fun _ => true) ids

theorem Rule.confined_monotone : (Rule.confined ids).Monotone :=
  fun _ _ _ _ implies obeys => ⟨obeys.1,obeys.2.1,fun r named => implies r _ (obeys.2.2 r named)⟩

theorem Rule.confined_keeps {allowed : Call → Bool} (blind : ∀ c, allowed c = true → c.blind = true) :
    (Rule.confined ids).Keeps allowed fun _ => True :=
  fun c yes _ g _ replied => ⟨Call.confined_of_blind (blind c yes),rfl,fun r _ => replied r g trivial⟩

theorem Program.Obeys.confining {rule : Rule G} {goal : α → G → Prop} {p : Program α} {g : G} (monotone : rule.Monotone)
    (obeys : p.Obeys rule goal g) (confined : p.Obeys (Rule.confined ids) (fun _ _ => True) ()) :
    p.Obeys (rule.confining ids) goal g := by
  induction p generalizing g with
  | done a => exact obeys
  | call c next ih =>
    refine ⟨confined.1,monotone c _ _ g (fun r g kept named => ?_) obeys⟩
    exact ih r kept (confined.2.2 r named)

def Procedure.Confined (ids : Finset RecordId) (p : Procedure σ α) : Prop :=
  ∀ s, p.Obeys (Rule.confined ids) (fun _ _ _ => True) s ()

namespace Procedure

variable {p : Procedure σ α}

theorem Confined.bind {f : α → Procedure σ β} (first : p.Confined ids) (rest : ∀ a, (f a).Confined ids) :
    (p >>= f).Confined ids := by
  intro s
  refine (obeys_bind _ p f).mpr ((first s).mono Rule.confined_monotone fun answer s _ _ => ?_)
  cases answer with
  | error e => trivial
  | ok a => exact rest a s

theorem Confined.outcome (confined : p.Confined ids) : p.outcome.Confined ids :=
  fun s => (obeys_outcome _ p).mpr (confined s)

theorem confined_ofOutcome (answer : Outcome α) : (ofOutcome answer : Procedure σ α).Confined ids := fun _ => trivial

theorem confined_perform {c : Call} (blind : c.blind = true) : @Confined σ (no_index c.Reply) ids (perform c) :=
  fun _ => ⟨Call.confined_of_blind blind,rfl,fun _ _ => trivial⟩

end Procedure

def Transaction.StagedIn (ids : Finset RecordId) (t : Transaction) : Prop := ∀ id, id ∉ ids → t.writes[id]? = none

namespace Transaction

variable {t : Transaction} {seen : Record}

theorem StagedIn.stage (confined : t.StagedIn ids) (inside : seen.id ∈ ids) (expected : Version) (balance : Amount) :
    (t.stage seen expected balance).2.StagedIn ids := by
  unfold Transaction.stage
  split
  · exact confined
  · split
    · exact confined
    · intro id outside
      have other : seen.id ≠ id := fun same => outside (same ▸ inside)
      change (t.writes.insert seen.id _)[id]? = none
      rw [Std.TreeMap.getElem?_insert,if_neg (by simpa using other)]
      exact confined id outside

end Transaction

/-- In a transaction that has staged writes of these records alone, it has to do with them alone, and leaves it so. -/
def Session.Contained (ids : Finset RecordId) (p : Session α) : Prop :=
  ∀ t, t.StagedIn ids → p.Obeys (Rule.confined ids) (fun _ t _ => t.StagedIn ids) t ()

namespace Session

variable {id : RecordId}

theorem Contained.bind {p : Session α} {f : α → Session β} (first : p.Contained ids)
    (rest : ∀ a, (f a).Contained ids) : (p >>= f).Contained ids := by
  intro t confined
  refine (obeys_bind _ p f).mpr ((first t confined).mono Rule.confined_monotone fun answer t _ confined => ?_)
  cases answer with
  | error e => exact confined
  | ok a => exact rest a t confined

theorem contained_ofOutcome (answer : Outcome α) : Contained ids (ofOutcome answer) := fun _ confined => confined

theorem names_read (inside : id ∈ ids) {t : Transaction} : (read id).Obeys (Rule.confined ids)
    (fun answer after _ => after = t ∧ ∀ r, answer = .ok r → r.id = id) t () := by
  simp only [read,ensureActive,obeys_bind,obeys_get,obeys_ofError,obeys_perform]
  cases Outcome.ofError t.ensureActive with
  | error e => exact ⟨trivial,fun _ seen => by cases seen⟩
  | ok _ =>
    refine ⟨inside,rfl,fun found named => ?_⟩
    cases found with
    | none => exact ⟨rfl,fun _ seen => by cases seen⟩
    | some stored => exact ⟨rfl,fun r viewed => (Transaction.id_of_view viewed).trans (named stored rfl)⟩

theorem contained_read (inside : id ∈ ids) : (read id).Contained ids := by
  intro t confined
  refine (names_read inside).mono Rule.confined_monotone fun answer after _ ended => ?_
  rw [ended.1]
  exact confined

theorem contained_write (inside : id ∈ ids) (expected : Version) (balance : Amount) :
    (write id expected balance).Contained ids := by
  intro t confined
  unfold write
  rw [obeys_bind]
  refine (names_read inside).mono Rule.confined_monotone fun answer after _ ended => ?_
  obtain ⟨rfl,named⟩ := ended
  cases answer with
  | error e => exact confined
  | ok seen => exact confined.stage (named seen rfl ▸ inside) expected balance

theorem contained_of_yields {p : Session α} {goal : Outcome α → Transaction → Prop} {t : Transaction}
    (gives : p.Obeys (Rule.only Call.yields) (fun answer t _ => goal answer t) t ()) :
    p.Obeys (Rule.confined ids) (fun _ _ _ => True) t () :=
  (Obeys.of_only (Rule.confined_keeps fun _ => Call.blind_of_locks ∘ Call.locks_of_yields) gives trivial).mono
    Rule.confined_monotone fun _ _ _ _ => trivial

theorem contained_commit {t : Transaction} (confined : t.StagedIn ids) :
    commit.Obeys (Rule.confined ids) (fun _ _ _ => True) t () := by
  have releases : releaseHeld.Confined ids := fun _ => contained_of_yields yields_releaseHeld
  have aborts (e : Error) : (abort e.message >>= fun _ => fail e : Session Unit).Confined ids :=
    fun _ => contained_of_yields (yields_abort_fail e)
  simp only [commit,obeys_bind,obeys_get]
  split
  · exact releases.bind (fun _ => Procedure.confined_ofOutcome _) t
  · rw [obeys_ite]
    split
    · exact releases _
    · rw [obeys_bind,obeys_perform]
      refine ⟨trivial,rfl,fun due _ => ?_⟩
      cases due with
      | error e => exact aborts e t
      | ok _ =>
        dsimp only
        rw [obeys_bind,obeys_perform]
        refine ⟨confined,rfl,fun applied _ => ?_⟩
        cases applied with
        | error e => exact aborts e t
        | ok _ => exact releases _

end Session

theorem Locking.confined_run (l : Locking) (locked : List RecordId) {body : Session α} (inner : body.Contained ids) :
    (l.run locked body : Procedure σ α).Confined ids := by
  have fails (e : Failure) (own : Transaction) :
      (Session.conclude (.error e : Outcome α)).Obeys (Rule.confined ids) (fun _ _ _ => True) own () :=
    Session.contained_of_yields (Session.yields_conclude_error e)
  intro s
  simp only [run,withTransaction,obeys_bind,obeys_perform,obeys_within,obeys_outcome,obeys_ofOutcome]
  refine ⟨trivial,rfl,fun owner _ => ?_⟩
  refine (l.keeps_acquireAll Rule.confined_monotone (Rule.confined_keeps fun _ => Call.blind_of_locks) trivial).mono
    Rule.confined_monotone fun answer own _ locked => ?_
  cases answer with
  | error e => exact fails e own
  | ok _ =>
    have confined : own.StagedIn ids := fun id _ => by
      rw [locked.2 rfl]
      exact Std.TreeMap.getElem?_emptyc
    refine (inner own confined).mono Rule.confined_monotone fun answer own _ confined => ?_
    cases answer with
    | error e => exact fails e own
    | ok a =>
      dsimp only [Session.conclude]
      rw [obeys_bind]
      exact (Session.contained_commit confined).mono Rule.confined_monotone fun answer _ _ _ => by cases answer <;> trivial

theorem RetryPolicy.confined_run (p : RetryPolicy) {o : RetryOptions σ α} {operation : Procedure σ α}
    (alone : o.fallback = none) (inner : operation.Confined ids) : (p.run o operation).Confined ids := by
  intro s
  have keeps : (Rule.confined ids).Keeps Call.aside fun _ => True := Rule.confined_keeps fun _ => Call.blind_of_aside
  unfold run
  rw [obeys_bind,obeys_perform]
  refine ⟨trivial,rfl,fun now _ => ?_⟩
  refine (p.obeys_loop Rule.confined_monotone keeps (fun _ => keeps) (fun _ => keeps) alone (fun _ _ _ _ => trivial)
    (fun s _ _ => (inner s).mono Rule.confined_monotone fun answer _ _ _ => ?_) _ _ trivial).mono Rule.confined_monotone
    fun _ _ _ _ => trivial
  cases answer <;> trivial

namespace Transfer

variable {t : Transfer} (source : t.source ∈ ids) (target : t.target ∈ ids)

include source target

theorem contained_stage : t.stage.Contained ids :=
  (Session.contained_read source).bind fun _ => (Session.contained_read target).bind fun _ =>
    (Session.contained_ofOutcome _).bind fun _ => (Session.contained_ofOutcome _).bind fun _ =>
      (Session.contained_write source _ _).bind fun _ => (Session.contained_write target _ _).bind fun _ =>
        Session.contained_ofOutcome _

theorem confined_ordered (l : Locking) : (t.ordered l : Procedure σ Receipt).Confined ids :=
  (Procedure.confined_ofOutcome _).bind fun _ => l.confined_run _ (contained_stage source target)

theorem confined_coordinated (c : DeadlockCoordinator) : (c.transfer t : Procedure σ Receipt).Confined ids := by
  have attempt : (c.attempt t : Procedure σ Receipt).Confined ids := by
    refine (c.locking.confined_run _ (contained_stage source target)).outcome.bind fun answer => ?_
    have ends : (ofOutcome answer : Procedure σ Receipt).Confined ids := Procedure.confined_ofOutcome answer
    rcases answer with (e | _) | _
    · dsimp only
      split
      · exact (Procedure.confined_perform rfl).bind fun _ => ends
      · exact ends
    · exact ends
    · exact ends
  refine (Procedure.confined_ofOutcome _).bind fun _ => (c.policy.confined_run rfl attempt).bind fun result => ?_
  cases result with
  | error e => exact (Procedure.confined_perform rfl).bind fun _ => Procedure.confined_ofOutcome _
  | ok o => exact (Procedure.confined_perform rfl).bind fun _ => Procedure.confined_ofOutcome _

end Transfer

end VersionedLedger

import VersionedLedger.Optimistic
import VersionedLedger.Proofs.Program.Dialogue
import VersionedLedger.Proofs.Program.Locking

/-! Which calls an operation makes at all. Reads, single writes and transfers call the store, and sleep between their
requests for locks; they ask no circuit, report nothing and keep no counts. -/
namespace VersionedLedger

open Procedure

variable {σ α β : Type}

namespace Call

/-- Calls that the store answers, and rests between two of them that nobody cuts short. -/
def ofStore : Call → Bool
  | lookup _ | begin | checkFault _ | acquire .. | release .. | releaseAll .. | install .. | apply _ | countAbort
  | sleep _ false => true
  | _ => false

theorem ofStore_of_locks {c : Call} (locks : c.locks = true) : c.ofStore = true := by
  cases c with
  | sleep d watched => cases watched <;> first | rfl | cases locks
  | _ => first | rfl | cases locks

theorem ofStore_of_yields {c : Call} (gives : c.yields = true) : c.ofStore = true :=
  ofStore_of_locks (locks_of_yields gives)

end Call

/-- Whatever it is replied, it makes calls of this kind alone. -/
def Program.Only (allowed : Call → Bool) (p : Program α) : Prop := p.Obeys (Rule.only allowed) (fun _ _ => True) ()

theorem Program.Only.calls {allowed : Call → Bool} {p : Program α} {trace : List Made} {a : α} (only : p.Only allowed)
    (made : p.Makes trace a) : ∀ m ∈ trace, allowed m.call = true := by
  induction made with
  | done => exact List.forall_mem_nil _
  | call c next r _ ih => exact List.forall_mem_cons.mpr ⟨only.1,ih (only.2 r)⟩

def Procedure.Only (allowed : Call → Bool) (p : Procedure σ α) : Prop :=
  ∀ s, p.Obeys (Rule.only allowed) (fun _ _ _ => True) s ()

namespace Procedure

variable {allowed : Call → Bool} {p : Procedure σ α} {s s' : σ} {trace : List Made} {answer : Outcome α}

theorem Only.bind {f : α → Procedure σ β} (first : p.Only allowed) (rest : ∀ a, (f a).Only allowed) :
    (p >>= f).Only allowed := by
  intro s
  refine (obeys_bind _ p f).mpr ((first s).mono (Rule.only_monotone _) fun answer s _ _ => ?_)
  cases answer with
  | error e => trivial
  | ok a => exact rest a s

theorem only_ofOutcome (answer : Outcome α) : (ofOutcome answer : Procedure σ α).Only allowed := fun _ => trivial

theorem only_of_obeys {narrow : Call → Bool} (narrower : ∀ c, narrow c = true → allowed c = true)
    {goal : Outcome α → σ → Prop}
    (obeys : ∀ s, p.Obeys (Rule.only narrow) (fun answer s _ => goal answer s) s ()) : p.Only allowed := by
  intro s
  have keeps : (Rule.only allowed).Keeps narrow fun _ => True :=
    fun c narrow promise g _ replied => ⟨narrower c narrow,fun r => replied r g trivial⟩
  exact (Obeys.of_only keeps (obeys s) trivial).mono (Rule.only_monotone _) fun _ _ _ _ => trivial

theorem Only.mono {narrow : Call → Bool} (only : p.Only narrow) (narrower : ∀ c, narrow c = true → allowed c = true) :
    p.Only allowed := only_of_obeys narrower fun s => (only s : p.Obeys _ (fun _ _ _ => True) s ())

theorem Only.outcome (only : p.Only allowed) : p.outcome.Only allowed := fun s => (obeys_outcome _ p).mpr (only s)

theorem only_perform {c : Call} (yes : allowed c = true) :
    @Only σ (no_index c.Reply) allowed (perform c) := fun _ => ⟨yes,fun _ => trivial⟩

theorem Only.calls (only : p.Only allowed) (made : p.Makes s trace answer s') :
    ∀ m ∈ trace, allowed m.call = true := Program.Only.calls (p := p.start s) (only s) made

end Procedure

namespace Optimistic

theorem only_read (id : RecordId) : (read id : Procedure σ Record).Only Call.ofStore := by
  intro s
  simp only [read,obeys_bind,obeys_perform]
  refine ⟨rfl,fun found => ?_⟩
  cases found <;> trivial

theorem only_conditionalUpdate (id : RecordId) (expected : Version) (balance : Amount) :
    (conditionalUpdate id expected balance : Procedure σ Record).Only Call.ofStore := by
  intro s
  simp only [conditionalUpdate,obeys_bind,obeys_perform,obeys_ofError]
  refine ⟨rfl,fun due => ?_⟩
  cases due with
  | error e => trivial
  | ok _ =>
    refine ⟨rfl,fun found => ?_⟩
    dsimp only
    rw [obeys_ite]
    split
    · trivial
    · simp only [obeys_bind,obeys_perform,obeys_ofOutcome]
      refine ⟨rfl,fun owner => ⟨rfl,fun granted => ?_⟩⟩
      cases granted with
      | error e => trivial
      | ok _ => exact ⟨rfl,fun _ => ⟨rfl,fun _ => trivial⟩⟩

theorem only_update (id : RecordId) {mutate : Amount → Procedure σ Amount}
    (computes : ∀ balance, (mutate balance).Only Call.ofStore) : (update id mutate).Only Call.ofStore :=
  (only_read id).bind fun _ => (computes _).bind fun _ => (only_conditionalUpdate id _ _).bind fun _ _ => trivial

end Optimistic

namespace Session

theorem only_read (id : RecordId) : (read id).Only Call.ofStore := by
  intro t
  simp only [read,ensureActive,obeys_bind,obeys_get,obeys_ofError,obeys_perform]
  cases Outcome.ofError t.ensureActive with
  | error e => trivial
  | ok _ =>
    refine ⟨rfl,fun found => ?_⟩
    cases found <;> trivial

theorem only_write (id : RecordId) (expected : Version) (balance : Amount) :
    (write id expected balance).Only Call.ofStore :=
  (only_read id).bind fun _ _ => trivial

theorem only_commit : commit.Only Call.ofStore := by
  have releases : releaseHeld.Only Call.ofStore := only_of_obeys (fun _ => Call.ofStore_of_yields) fun _ => yields_releaseHeld
  have aborts (e : Error) : (abort e.message >>= fun _ => fail e : Session Unit).Only Call.ofStore :=
    only_of_obeys (fun _ => Call.ofStore_of_yields) fun _ => yields_abort_fail e
  intro t
  simp only [commit,obeys_bind,obeys_get]
  split
  · exact releases.bind (fun _ => only_ofOutcome _) t
  · rw [obeys_ite]
    split
    · rw [obeys_bind,obeys_modify]
      exact releases _
    · rw [obeys_bind,obeys_perform]
      refine ⟨rfl,fun due => ?_⟩
      cases due with
      | error e => exact aborts e t
      | ok _ =>
        dsimp only
        rw [obeys_bind,obeys_perform]
        refine ⟨rfl,fun applied => ?_⟩
        cases applied with
        | error e => exact aborts e t
        | ok _ => exact releases _

theorem only_conclude (answer : Outcome α) : (conclude answer).Only Call.ofStore := by
  cases answer with
  | error e => exact only_of_obeys (fun _ => Call.ofStore_of_yields) fun _ => yields_conclude_error e
  | ok a => exact only_commit.bind fun _ _ => trivial

end Session

namespace Locking

variable (l : Locking)

theorem only_acquireAll (ids : List RecordId) : (l.acquireAll ids).Only Call.ofStore := by
  intro t
  have keeps : (Rule.only Call.ofStore).Keeps Call.locks fun _ => True :=
    fun c locks promise g _ replied => ⟨Call.ofStore_of_locks locks,fun r => replied r g trivial⟩
  exact (l.keeps_acquireAll (Rule.only_monotone _) keeps trivial).mono (Rule.only_monotone _) fun _ _ _ _ => trivial

theorem only_run (ids : List RecordId) {body : Session α} (inner : body.Only Call.ofStore) :
    (l.run ids body : Procedure σ α).Only Call.ofStore := by
  have works : ((do l.acquireAll ids; body : Session α).outcome >>= Session.conclude).Only Call.ofStore := by
    intro t
    rw [obeys_bind,obeys_outcome]
    refine ((l.only_acquireAll ids).bind (fun _ => inner) t).mono (Rule.only_monotone _) fun answer t g _ => ?_
    exact Session.only_conclude answer t
  intro s
  simp only [run,withTransaction]
  rw [obeys_bind,obeys_perform]
  refine ⟨rfl,fun owner => ?_⟩
  dsimp only
  rw [obeys_bind,obeys_within]
  exact (works _).mono (Rule.only_monotone _) fun answer t g _ => trivial

end Locking

namespace Transfer

variable (t : Transfer) (l : Locking)

theorem only_stage : t.stage.Only Call.ofStore :=
  (Session.only_read t.source).bind fun _ => (Session.only_read t.target).bind fun _ =>
    (only_ofOutcome _).bind fun _ => (only_ofOutcome _).bind fun _ =>
      (Session.only_write t.source _ _).bind fun _ => (Session.only_write t.target _ _).bind fun _ _ => trivial

theorem only_ordered : (t.ordered l : Procedure σ Receipt).Only Call.ofStore :=
  (only_ofOutcome _).bind fun _ => l.only_run _ t.only_stage

theorem only_requested : (t.requested l : Procedure σ Receipt).Only Call.ofStore := l.only_run _ t.only_stage

end Transfer

end VersionedLedger

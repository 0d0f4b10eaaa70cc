import Mathlib.Logic.Function.Basic
import VersionedLedger.Proofs.Pool.Turn
import VersionedLedger.Proofs.Program.Obeys

/-! What the workers of a pool can agree on. Each keeps to a rule of its own, with something that it alone knows; what
they all know together holds of the ledger, and the answer to each call keeps it so. Then it holds in every schedule. -/
namespace VersionedLedger

variable {G α : Type}

/-- Rules for the workers, and what holds of the ledger as long as they are kept. Waiting tells a worker nothing, but that
a sleep was watched if it was cut short; and neither time nor the locks have a part in it. -/
structure Pact (G : Type) where
  rule : Nat → Rule G
  holds : Ledger → (Nat → G) → Prop
  acquires {i : Nat} {owner : TxnId} {id : RecordId} {timeout : Option Duration} {existing : Bool}
    {promise : Outcome Unit → G → Prop} {own : G} (obeys : rule i (.acquire owner id timeout existing) promise own)
    (r : Outcome Unit) : promise r own
  sleeps {i : Nat} {d : Duration} {watched : Bool} {promise : Bool → G → Prop} {own : G}
    (obeys : rule i (.sleep d watched) promise own) (slept : Bool) (cut : slept = false → watched = true) :
    promise slept own
  elapse {s : Ledger} {g : Nat → G} (d : Duration) (before : holds s g) : holds (s.elapse d) g
  locks {s : Ledger} {g : Nat → G} (f : LockManager → LockManager) (before : holds s g) : holds (s.onLocks f) g
  answer {i : Nat} {c : Call} {promise : c.Reply → G → Prop} {s : Ledger} {g : Nat → G} (prompt : c.waits = false)
    (obeys : rule i c promise (g i)) (before : holds s g) :
    ∃ own, promise (s.answer c).1 own ∧ holds (s.answer c).2 (Function.update g i own)

def Worker.Keeps (rule : Rule G) (goal : α → G → Prop) : Worker α → G → Prop
  | ready p, g => p.Obeys rule goal g
  | asleep _ watched next, g => ∀ slept, (slept = false → watched = true) → (next slept).Obeys rule goal g
  | blocked _ next, g => ∀ r, (next r).Obeys rule goal g
  | finished a, g => goal a g

@[simp] theorem Worker.keeps_wake {rule : Rule G} {goal : α → G → Prop} (w : Worker α) (g : G) :
    w.wake.Keeps rule goal g ↔ w.Keeps rule goal g := by
  cases w <;> rfl

namespace Pool

variable {P : Pact G} {goal : Nat → α → G → Prop} {p : Pool α} {g : Nat → G}

structure Keeps (P : Pact G) (goal : Nat → α → G → Prop) (p : Pool α) (g : Nat → G) : Prop where
  workers : ∀ (i : Nat) (w : Worker α), p.workers[i]? = some w → w.Keeps (P.rule i) (goal i) (g i)
  holds : P.holds p.ledger g

private theorem Keeps.update (keeps : p.Keeps P goal g) {i : Nat} {w after : Worker α} {s : Ledger} {own : G}
    (present : p.workers[i]? = some w) (kept : after.Keeps (P.rule i) (goal i) own)
    (holds : P.holds s (Function.update g i own)) :
    (p.update i (after, s)).Keeps P goal (Function.update g i own) := by
  refine ⟨fun j w' now => ?_,holds⟩
  by_cases same : j = i
  · subst same
    rw [worker_update_self present] at now
    cases now
    rwa [Function.update_self]
  · rw [worker_update_other same] at now
    obtain ⟨before,here,rfl⟩ := Option.map_eq_some_iff.mp now
    rw [Function.update_of_ne same]
    have other := keeps.workers j before here
    split
    · exact (Worker.keeps_wake before (g j)).mpr other
    · exact other

private theorem Keeps.update_still (keeps : p.Keeps P goal g) {i : Nat} {w after : Worker α} {s : Ledger}
    (present : p.workers[i]? = some w) (kept : after.Keeps (P.rule i) (goal i) (g i)) (holds : P.holds s g) :
    (p.update i (after, s)).Keeps P goal g := by
  rw [← Function.update_eq_self i g] at holds
  have updated := keeps.update present kept holds
  rwa [Function.update_eq_self] at updated

theorem Keeps.turn (keeps : p.Keeps P goal g) {i : Nat} {w after : Worker α} {s : Ledger}
    (present : p.workers[i]? = some w) (turn : Worker.Turn p.ledger w after s) :
    ∃ g', (p.update i (after, s)).Keeps P goal g' := by
  have kept := keeps.workers i w present
  cases turn with
  | finish a => exact ⟨g,keeps.update_still present kept keeps.holds⟩
  | doze d watched next => exact ⟨g,keeps.update_still present (P.sleeps kept) keeps.holds⟩
  | rise wake watched next due => exact ⟨g,keeps.update_still present (kept true Bool.noConfusion) keeps.holds⟩
  | cut wake next cancelled => exact ⟨g,keeps.update_still present (kept false fun _ => rfl) keeps.holds⟩
  | answer c next prompt =>
    obtain ⟨own,promised,holds⟩ := P.answer prompt kept keeps.holds
    exact ⟨_,keeps.update present promised holds⟩
  | missing owner id timeout next absent =>
    exact ⟨g,keeps.update_still present (P.acquires kept _) keeps.holds⟩
  | @round _ lw first next r locks asks decides =>
    have replies (r : Outcome Unit) : (next r).Obeys (P.rule i) (goal i) (g i) := by
      cases asks with
      | first => exact P.acquires kept r
      | again => exact kept r
    refine ⟨g,keeps.update_still present ?_ (P.locks _ keeps.holds)⟩
    cases r with
    | granted | held => exact replies (.ok ())
    | deadlock => exact replies _
    | waiting => exact replies
  | giveUp lw next waited taken => exact ⟨g,keeps.update_still present (kept _) (P.locks _ keeps.holds)⟩

theorem Keeps.move (keeps : p.Keeps P goal g) (m : Move) : ∃ g', (p.move m).Keeps P goal g' := by
  rcases p.move_cases m with ⟨d,passes⟩ | same | ⟨i,w,after,s,present,turn,moved,_⟩
  · rw [passes]
    exact ⟨g,keeps.workers,P.elapse d keeps.holds⟩
  · rw [same]
    exact ⟨g,keeps⟩
  · rw [moved]
    exact keeps.turn present turn

theorem Keeps.play (keeps : p.Keeps P goal g) (moves : List Move) : ∃ g', (p.play moves).Keeps P goal g' := by
  induction moves generalizing p g with
  | nil => exact ⟨g,keeps⟩
  | cons m moves ih =>
    obtain ⟨g',moved⟩ := keeps.move m
    exact ih moved

theorem keeps_start {s : Ledger} {programs : List (Program α)} (holds : P.holds s g)
    (obey : ∀ (i : Nat) (q : Program α), programs[i]? = some q → q.Obeys (P.rule i) (goal i) (g i)) :
    (start s programs).Keeps P goal g := by
  refine ⟨fun i w present => ?_,holds⟩
  unfold start at present
  rw [List.getElem?_map] at present
  obtain ⟨q,here,rfl⟩ := Option.map_eq_some_iff.mp present
  exact obey i q here

theorem Keeps.result (keeps : p.Keeps P goal g) {i : Nat} {a : α} (ended : p.result? i = some a) : goal i a (g i) := by
  obtain ⟨w,present,returned⟩ := Option.bind_eq_some_iff.mp ended
  cases w with
  | finished b =>
    cases returned
    exact keeps.workers i _ present
  | _ => cases returned

end Pool

end VersionedLedger

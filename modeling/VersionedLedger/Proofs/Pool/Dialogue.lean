import Mathlib.Algebra.BigOperators.Group.Finset.Piecewise
import VersionedLedger.Proofs.Pool.Refusal
import VersionedLedger.Proofs.Program.Guarded
import VersionedLedger.Proofs.Store.Commit

/-! What the workers of a pool say. In every schedule each of them makes the calls of its own program, and only with
failures that a ledger replies with; what is read off the ledger has grown by what these calls add to it. -/
namespace VersionedLedger

variable {α : Type}

/-- The failures that a ledger replies with. A request for a lock may be refused only if there are refusals. -/
inductive Failure.Replied (refusals : Prop) : Failure → Prop
  | fault (reason : String) : Replied refusals (.error (.unavailable reason))
  | missing (id : RecordId) : Replied refusals (.error (.notFound id))
  | moved (id : RecordId) (expected actual : Version) : Replied refusals (.error (.versionConflict id expected actual))
  | late (id : RecordId) (waited : Nat) : Replied refusals (.error (.lockTimeout id waited))
  | refused (allowed : refusals) (id : RecordId) : Replied refusals (.error (.deadlock id))
  | opened (operation : String) (state : CircuitState) : Replied refusals (.error (.circuitOpen operation state))
  | full : Replied refusals (.crash .sumOverflow)

namespace Made

def failure? : Made → Option Failure
  | ⟨.checkFault _,.error e⟩ | ⟨.apply _,.error e⟩ | ⟨.admitCall _,.error e⟩ => some (.error e)
  | ⟨.acquire _ _ _ _,.error f⟩ | ⟨.install _ _ _,.error f⟩ => some f
  | _ => none

def Answered (refusals : Prop) (m : Made) : Prop := ∀ f, m.failure? = some f → f.Replied refusals

/-- A sleep that nobody can cut short has been completed. -/
def Slept : Made → Prop
  | ⟨.sleep _ false,completed⟩ => completed = true
  | _ => True

theorem slept_of_prompt {m : Made} (prompt : m.call.waits = false) : m.Slept := by
  obtain ⟨c,r⟩ := m
  cases c with
  | sleep => cases prompt
  | _ => trivial

end Made

namespace Ledger

variable {refusals : Prop} (s : Ledger)

theorem answered_answer {c : Call} (prompt : c.waits = false) : Made.Answered refusals ⟨c,(s.answer c).1⟩ := by
  intro f failed
  cases c with
  | acquire => cases prompt
  | checkFault operation =>
    by_cases due : s.FaultDue
    · have answer : (s.answer (.checkFault operation)).1 = _ := checkFault_of_due due
      rw [answer] at failed
      cases failed
      exact .fault _
    · have answer : (s.answer (.checkFault operation)).1 = _ := checkFault_of_not_due due
      rw [answer] at failed
      cases failed
  | install id expected balance =>
    generalize given : (s.answer (.install id expected balance)).1 = answer at failed
    cases answer with
    | ok _ => cases failed
    | error e =>
      cases failed
      change (s.store.install id expected balance).1 = _ at given
      unfold Store.install at given
      split at given
      · cases given
        exact .missing _
      · split at given
        · cases given
          exact .moved _ _ _
        · split at given
          · cases given
          · next full =>
            cases given
            rw [(Record.full_of_next full).1]
            exact .full
  | apply writes =>
    generalize given : (s.answer (.apply writes)).1 = answer at failed
    cases answer with
    | ok _ => cases failed
    | error e =>
      cases failed
      obtain ⟨id,staged,_,offends,_⟩ := Store.exists_least_of_apply given
      cases offends with
      | missing => exact .missing _
      | moved => exact .moved _ _ _
  | admitCall h =>
    generalize given : (s.answer (.admitCall h)).1 = answer at failed
    cases answer with
    | ok _ => cases failed
    | error e =>
      cases failed
      obtain ⟨state,_,rfl⟩ := Breaker.refusal given
      exact .opened _ _
  | _ => cases failed

end Ledger

/-- After these calls with these replies the program goes on as the other one. -/
def Program.Reaches (p : Program α) (said : List Made) (q : Program α) : Prop :=
  ∀ more a, q.Makes more a → p.Makes (said ++ more) a

namespace Program

variable {p : Program α} {said : List Made}

theorem reaches_start (p : Program α) : p.Reaches [] p := fun _ _ made => made

theorem Reaches.call {c : Call} {next : c.Reply → Program α} (reaches : p.Reaches said (.call c next)) (r : c.Reply) :
    p.Reaches (said ++ [⟨c,r⟩]) (next r) := by
  intro more a made
  rw [List.append_assoc]
  exact reaches _ a (.call c next r made)

theorem Reaches.makes {a : α} (reaches : p.Reaches said (.done a)) : p.Makes said a := by
  rw [← List.append_nil said]
  exact reaches [] a (.done a)

end Program

def Rule.answered (refusals : Prop) : Rule Unit := fun c promise g => ∀ r, Made.Answered refusals ⟨c,r⟩ → promise r g

theorem Rule.answered_monotone (refusals : Prop) : (Rule.answered refusals).Monotone :=
  fun _ _ _ g implies obeys r answered => implies r g (obeys r answered)

theorem Program.Obeys.of_makes {refusals : Prop} {goal : α → Unit → Prop} {p : Program α} {trace : List Made} {a : α}
    (obeys : p.Obeys (Rule.answered refusals) goal ()) (made : p.Makes trace a)
    (answered : ∀ m ∈ trace, m.Answered refusals) : goal a () := by
  induction made with
  | done => exact obeys
  | call c next r _ ih =>
    obtain ⟨first,rest⟩ := List.forall_mem_cons.mp answered
    exact ih (obeys r first) rest

namespace Worker

/-- What the worker of a program has said so far. -/
def Stands (p : Program α) (said : List Made) : Worker α → Prop
  | ready q => p.Reaches said q
  | asleep _ watched next => ∃ d, p.Reaches said (.call (.sleep d watched) next)
  | blocked w next => ∃ owner timeout existing, p.Reaches said (.call (.acquire owner w.id timeout existing) next)
  | finished a => p.Makes said a

theorem Stands.exists_makes {p : Program α} {said : List Made} {w : Worker α} (stands : w.Stands p said) (g : Ledger) :
    ∃ more a, p.Makes (said ++ more) a := by
  cases w with
  | ready q => exact ⟨_,_,stands _ _ (q.makes_dialogue g)⟩
  | asleep wake watched next =>
    obtain ⟨d,reaches⟩ := stands
    exact ⟨_,_,reaches _ _ ((Program.call (.sleep d watched) next).makes_dialogue g)⟩
  | blocked w next =>
    obtain ⟨owner,timeout,existing,reaches⟩ := stands
    exact ⟨_,_,reaches _ _ ((Program.call (.acquire owner w.id timeout existing) next).makes_dialogue g)⟩
  | finished a =>
    refine ⟨[],a,?_⟩
    rwa [List.append_nil]

@[simp] theorem stands_wake (p : Program α) (said : List Made) (w : Worker α) : w.wake.Stands p said ↔ w.Stands p said := by
  cases w <;> rfl

end Worker

/-- What can be read off some ledgers, and grows with the calls that are answered at once. -/
structure Gauge (M : Type) [AddCommMonoid M] where
  read : Ledger → M
  add : Made → M
  valid : Ledger → Prop
  slow {m : Made} (waits : m.call.waits = true) : add m = 0
  elapse {s : Ledger} (d : Duration) (before : valid s) : valid (s.elapse d) ∧ read (s.elapse d) = read s
  locks {s : Ledger} (f : LockManager → LockManager) (before : valid s) :
    valid (s.onLocks f) ∧ read (s.onLocks f) = read s
  answer {s : Ledger} {c : Call} (prompt : c.waits = false) (before : valid s) :
    valid (s.answer c).2 ∧ read (s.answer c).2 = read s + add ⟨c,(s.answer c).1⟩

namespace Gauge

variable {M : Type} [AddCommMonoid M] (γ : Gauge M)

def sum (said : List Made) : M := (said.map γ.add).sum

@[simp] theorem sum_nil : γ.sum [] = 0 := rfl

@[simp] theorem sum_cons (m : Made) (said : List Made) : γ.sum (m :: said) = γ.add m + γ.sum said := List.sum_cons

@[simp] theorem sum_append (said more : List Made) : γ.sum (said ++ more) = γ.sum said + γ.sum more := by
  simp [sum]

theorem sum_eq_zero {said : List Made} (vanishes : ∀ m ∈ said, γ.add m = 0) : γ.sum said = 0 := by
  refine List.sum_eq_zero fun n member => ?_
  obtain ⟨m,here,rfl⟩ := List.mem_map.mp member
  exact vanishes m here

def map {N : Type} [AddCommMonoid N] (f : M →+ N) : Gauge N where
  read s := f (γ.read s)
  add m := f (γ.add m)
  valid := γ.valid
  slow waits := by rw [γ.slow waits,f.map_zero]
  elapse d before := ⟨(γ.elapse d before).1,congrArg f (γ.elapse d before).2⟩
  locks change before := ⟨(γ.locks change before).1,congrArg f (γ.locks change before).2⟩
  answer prompt before := by
    refine ⟨(γ.answer prompt before).1,?_⟩
    rw [(γ.answer prompt before).2,f.map_add]

end Gauge

namespace Pool

variable {refusals : Prop} {s : Ledger} {programs : List (Program α)} {p : Pool α} {said : Nat → List Made}

/-- What each worker has said since the start, and what that has come to. The replies are those of a ledger. -/
structure Spoken (refusals : Prop) (s : Ledger) (programs : List (Program α)) (p : Pool α)
    (said : Nat → List Made) : Prop where
  workers : ∀ (i : Nat) (w : Worker α), p.workers[i]? = some w → ∃ q, programs[i]? = some q ∧ w.Stands q (said i)
  replied : ∀ i, ∀ m ∈ said i, m.Answered refusals ∧ m.Slept
  added : ∀ {M : Type} [AddCommMonoid M] (γ : Gauge M), γ.valid s →
    γ.valid p.ledger ∧ γ.read p.ledger = γ.read s + ∑ i ∈ Finset.range programs.length, γ.sum (said i)

theorem spoken_start (refusals : Prop) (s : Ledger) (programs : List (Program α)) :
    (start s programs).Spoken refusals s programs fun _ => [] := by
  refine ⟨fun i w present => ?_,fun _ _ member => absurd member List.not_mem_nil,
    fun γ valid => ⟨valid,by simp [start]⟩⟩
  unfold start at present
  rw [List.getElem?_map] at present
  obtain ⟨q,here,rfl⟩ := Option.map_eq_some_iff.mp present
  exact ⟨q,here,q.reaches_start⟩

private theorem Spoken.update (spoken : p.Spoken refusals s programs said) {i : Nat} {w after : Worker α} {s' : Ledger}
    {q : Program α} {more : List Made} (present : p.workers[i]? = some w) (named : programs[i]? = some q)
    (stands : after.Stands q (said i ++ more)) (replied : ∀ m ∈ more, m.Answered refusals ∧ m.Slept)
    (added : ∀ {M : Type} [AddCommMonoid M] (γ : Gauge M), γ.valid p.ledger →
      γ.valid s' ∧ γ.read s' = γ.read p.ledger + γ.sum more) :
    (p.update i (after, s')).Spoken refusals s programs (Function.update said i (said i ++ more)) := by
  refine ⟨fun j w' now => ?_,fun j m member => ?_,fun γ valid => ?_⟩
  · by_cases same : j = i
    · subst same
      rw [worker_update_self present] at now
      cases now
      rw [Function.update_self]
      exact ⟨q,named,stands⟩
    · rw [worker_update_other same] at now
      obtain ⟨w'',here,rfl⟩ := Option.map_eq_some_iff.mp now
      rw [Function.update_of_ne same]
      obtain ⟨q',named',stands'⟩ := spoken.workers j w'' here
      refine ⟨q',named',?_⟩
      split
      · exact (Worker.stands_wake q' _ w'').mpr stands'
      · exact stands'
  · by_cases same : j = i
    · subst same
      rw [Function.update_self] at member
      exact (List.mem_append.mp member).elim (spoken.replied j m) (replied m)
    · rw [Function.update_of_ne same] at member
      exact spoken.replied j m member
  · have inside : i ∈ Finset.range programs.length :=
      Finset.mem_range.mpr (List.getElem?_eq_some_iff.mp named).1
    have sums (j : Nat) : γ.sum (Function.update said i (said i ++ more) j) =
        Function.update (fun j => γ.sum (said j)) i (γ.sum (said i) + γ.sum more) j := by
      rw [← γ.sum_append]
      exact Function.apply_update (fun _ => γ.sum) said i _ j
    obtain ⟨still,before⟩ := spoken.added γ valid
    obtain ⟨valid',grown⟩ := added γ still
    refine ⟨valid',?_⟩
    change γ.read s' = _
    rw [grown,before,Finset.sum_congr rfl fun j _ => sums j,Finset.sum_update_of_mem inside,
      Finset.sum_eq_add_sum_sdiff_singleton_of_mem inside,add_assoc (γ.read s),add_right_comm]

theorem Spoken.turn (spoken : p.Spoken refusals s programs said) {i : Nat} {w after : Worker α} {s' : Ledger}
    (present : p.workers[i]? = some w) (turn : Worker.Turn p.ledger w after s')
    (calm : refusals ∨ s'.store.locks.stats.deadlocks = p.ledger.store.locks.stats.deadlocks) :
    ∃ said', (p.update i (after, s')).Spoken refusals s programs said' := by
  obtain ⟨q,named,before⟩ := spoken.workers i w present
  have silent {after : Worker α} {s' : Ledger} (stands : after.Stands q (said i))
      (same : ∀ {M : Type} [AddCommMonoid M] (γ : Gauge M), γ.valid p.ledger →
        γ.valid s' ∧ γ.read s' = γ.read p.ledger) :
      ∃ said', (p.update i (after, s')).Spoken refusals s programs said' := by
    refine ⟨_,spoken.update present named ?_ (List.forall_mem_nil _) fun γ valid => ?_⟩
    · rwa [List.append_nil]
    · rw [γ.sum_nil,add_zero]
      exact same γ valid
  have replied {m : Made} {after : Worker α} {s' : Ledger} (waits : m.call.waits = true)
      (given : m.Answered refusals ∧ m.Slept) (stands : after.Stands q (said i ++ [m]))
      (same : ∀ {M : Type} [AddCommMonoid M] (γ : Gauge M), γ.valid p.ledger →
        γ.valid s' ∧ γ.read s' = γ.read p.ledger) :
      ∃ said', (p.update i (after, s')).Spoken refusals s programs said' := by
    refine ⟨_,spoken.update present named stands (List.forall_mem_singleton.mpr given) fun γ valid => ?_⟩
    rw [γ.sum_cons,γ.slow waits,γ.sum_nil,add_zero,add_zero]
    exact same γ valid
  cases turn with
  | finish a => exact silent before.makes fun _ valid => ⟨valid,rfl⟩
  | doze d watched next => exact silent ⟨d,before⟩ fun _ valid => ⟨valid,rfl⟩
  | rise wake watched next due =>
    obtain ⟨d,reaches⟩ := before
    refine replied (m := ⟨.sleep d watched,true⟩) rfl ⟨fun f failed => (by cases failed),?_⟩ (reaches.call _)
      fun _ valid => ⟨valid,rfl⟩
    cases watched <;> trivial
  | cut wake next cancelled =>
    obtain ⟨d,reaches⟩ := before
    exact replied (m := ⟨.sleep d true,false⟩) rfl ⟨fun f failed => (by cases failed),trivial⟩ (reaches.call _)
      fun _ valid => ⟨valid,rfl⟩
  | answer c next prompt =>
    refine ⟨_,spoken.update present named (before.call _)
      (List.forall_mem_singleton.mpr ⟨p.ledger.answered_answer prompt,Made.slept_of_prompt prompt⟩) fun γ valid => ?_⟩
    rw [γ.sum_cons,γ.sum_nil,add_zero]
    exact γ.answer prompt valid
  | missing owner id timeout next absent =>
    refine replied (m := ⟨.acquire owner id timeout true,.error (.error (.notFound id))⟩) rfl
      ⟨fun f failed => ?_,trivial⟩ (before.call _) fun _ valid => ⟨valid,rfl⟩
    cases failed
    exact .missing id
  | @round _ lw first next r locks asks decides =>
    have asked : ∃ owner timeout existing, q.Reaches (said i) (.call (.acquire owner lw.id timeout existing) next) := by
      cases asks with
      | first owner id timeout existing => exact ⟨owner,timeout,existing,before⟩
      | again => exact before
    have unchanged {M : Type} [AddCommMonoid M] (γ : Gauge M) (valid : γ.valid p.ledger) :
        γ.valid (p.ledger.onLocks fun _ => locks) ∧ γ.read (p.ledger.onLocks fun _ => locks) = γ.read p.ledger :=
      γ.locks _ valid
    obtain ⟨owner,timeout,existing,reaches⟩ := asked
    have granted : ∃ said', (p.update i (.ready (next (.ok ())), p.ledger.onLocks fun _ => locks)).Spoken refusals s
        programs said' :=
      replied (m := ⟨.acquire owner lw.id timeout existing,.ok ()⟩) rfl ⟨fun f failed => (by cases failed),trivial⟩
        (reaches.call _) unchanged
    cases r with
    | granted | held => exact granted
    | deadlock =>
      refine replied (m := ⟨.acquire owner lw.id timeout existing,.error (.error (.deadlock lw.id))⟩) rfl
        ⟨fun f failed => ?_,trivial⟩ (reaches.call _) unchanged
      cases failed
      refine .refused (calm.resolve_right fun same => ?_) lw.id
      cases decides with
      | deadlock => exact Nat.succ_ne_self _ same
    | waiting => exact silent ⟨owner,timeout,existing,reaches⟩ unchanged
  | giveUp lw next waited taken =>
    obtain ⟨owner,timeout,existing,reaches⟩ := before
    refine replied (m := ⟨.acquire owner lw.id timeout existing,.error (.error (.lockTimeout lw.id waited))⟩) rfl
      ⟨fun f failed => ?_,trivial⟩ (reaches.call _) fun γ valid => γ.locks _ valid
    cases failed
    exact .late lw.id waited

theorem Spoken.move (spoken : p.Spoken refusals s programs said) {m : Move} (calm : refusals ∨ p.refused? m = none) :
    ∃ said', (p.move m).Spoken refusals s programs said' := by
  have counted := p.deadlocks_move m
  rcases p.move_cases m with ⟨d,passes⟩ | same | ⟨i,w,after,s',present,turn,moved,_⟩
  · rw [passes]
    refine ⟨said,spoken.workers,spoken.replied,fun γ valid => ?_⟩
    obtain ⟨still,before⟩ := spoken.added γ valid
    obtain ⟨valid',same⟩ := γ.elapse d still
    exact ⟨valid',same.trans before⟩
  · rw [same]
    exact ⟨said,spoken⟩
  · rw [moved] at counted ⊢
    refine spoken.turn present turn (calm.imp_right fun unrefused => ?_)
    rw [unrefused] at counted
    exact counted

theorem Spoken.play (spoken : p.Spoken refusals s programs said) (moves : List Move)
    (calm : refusals ∨ ∀ moves m, (p.play moves).refused? m = none) :
    ∃ said', (p.play moves).Spoken refusals s programs said' := by
  induction moves generalizing p said with
  | nil => exact ⟨said,spoken⟩
  | cons m moves ih =>
    obtain ⟨said',moved⟩ := spoken.move (calm.imp_right fun never => never [] m)
    exact ih moved (calm.imp_right fun never moves => never (m :: moves))

theorem Spoken.answered (spoken : p.Spoken refusals s programs said) (i : Nat) :
    ∀ m ∈ said i, m.Answered refusals := fun m member => (spoken.replied i m member).1

theorem Spoken.makes (spoken : p.Spoken refusals s programs said) {i : Nat} {a : α} (ended : p.result? i = some a) :
    ∃ q, programs[i]? = some q ∧ q.Makes (said i) a := by
  obtain ⟨w,present,returned⟩ := Option.bind_eq_some_iff.mp ended
  cases w with
  | finished b =>
    cases returned
    exact spoken.workers i _ present
  | _ => cases returned

end Pool

end VersionedLedger

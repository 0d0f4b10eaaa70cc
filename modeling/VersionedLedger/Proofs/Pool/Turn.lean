import VersionedLedger.Pool
import VersionedLedger.Proofs.Ledger.Answer
import VersionedLedger.Proofs.Lock.Rounds

/-! What one move of a pool can do: time passes, or one worker takes its turn. A turn answers a call,
makes one round of a lock request, or ends a wait; everything else that is said about pools is derived
from the list of turns. -/
namespace VersionedLedger

namespace LockWait

def wake (w : LockWait) : LockWait := { w with woken := true }

end LockWait

namespace Worker

variable {α : Type}

def wait? : Worker α → Option LockWait
  | blocked w _ => some w
  | _ => none

def caller? : Worker α → Option TxnId
  | ready (.call c _) => c.lockOwner?
  | _ => none

def resume (w : LockWait) (next : Outcome Unit → Program α) : LockRound → Worker α
  | .granted | .held => ready (next (.ok ()))
  | .deadlock => ready (next (.error (.error (.deadlock w.id))))
  | .waiting => blocked { w with woken := false } next

inductive Asks (s : Ledger) : Worker α → LockWait → Bool → (Outcome Unit → Program α) → Prop
  | first (owner : TxnId) (id : RecordId) (timeout : Option Duration) (existing : Bool)
      (next : Outcome Unit → Program α) (present : existing = true → s.store.contains id = true) :
    Asks s (ready (.call (.acquire owner id timeout existing) next))
      ⟨owner, id, s.clock, s.clock + s.lockBound timeout, false⟩ true next
  | again (w : LockWait) (next : Outcome Unit → Program α) : Asks s (blocked w next) w false next

inductive Turn (s : Ledger) : Worker α → Worker α → Ledger → Prop
  | finish (a : α) : Turn s (ready (.done a)) (finished a) s
  | doze (d : Duration) (watched : Bool) (next : Bool → Program α) :
    Turn s (ready (.call (.sleep d watched) next)) (asleep (s.clock + d) watched next) s
  | rise (wake : Time) (watched : Bool) (next : Bool → Program α) (due : wake ≤ s.clock) :
    Turn s (asleep wake watched next) (ready (next true)) s
  | cut (wake : Time) (next : Bool → Program α) (cancelled : s.isCancelled = true) :
    Turn s (asleep wake true next) (ready (next false)) s
  | answer (c : Call) (next : c.Reply → Program α) (prompt : c.waits = false) :
    Turn s (ready (.call c next)) (ready (next (s.answer c).1)) (s.answer c).2
  | missing (owner : TxnId) (id : RecordId) (timeout : Option Duration)
      (next : Outcome Unit → Program α) (absent : s.store.contains id = false) :
    Turn s (ready (.call (.acquire owner id timeout true) next))
      (ready (next (.error (.error (.notFound id))))) s
  | round {w : Worker α} {lw : LockWait} {first : Bool} {next : Outcome Unit → Program α}
      {r : LockRound} {locks : LockManager} (asks : Asks s w lw first next)
      (decides : s.store.locks.Decides lw.owner lw.id first r locks) :
    Turn s w (resume lw next r) (s.onLocks fun _ => locks)
  | giveUp (w : LockWait) (next : Outcome Unit → Program α) (waited : Nat)
      (taken : s.store.locks.table.heldByOther w.owner w.id = true) :
    Turn s (blocked w next) (ready (next (.error (.error (.lockTimeout w.id waited)))))
      (s.onLocks (·.giveUp w.owner))

end Worker

namespace Pool

variable {α : Type} {p : Pool α}

def start (s : Ledger) (programs : List (Program α)) : Pool α where
  ledger := s
  workers := programs.map .ready

def wait? (p : Pool α) (i : Nat) : Option LockWait := (p.workers[i]?).bind Worker.wait?

abbrev table (p : Pool α) : LockTable := p.ledger.store.locks.table

theorem lockRound_eq (s : Ledger) (w : LockWait) (first : Bool) (next : Outcome Unit → Program α) :
    lockRound s w first next = (Worker.resume w next (s.store.locks.request w.owner w.id first).1,
      s.onLocks fun _ => (s.store.locks.request w.owner w.id first).2) := by
  unfold lockRound Ledger.requestLock
  generalize s.store.locks.request w.owner w.id first = result
  obtain ⟨r,locks⟩ := result
  cases r <;> rfl

private theorem turn_lockRound {s : Ledger} {w : Worker α} {lw : LockWait} {first : Bool}
    {next : Outcome Unit → Program α} (asks : Worker.Asks s w lw first next) :
    Worker.Turn s w (lockRound s lw first next).1 (lockRound s lw first next).2 := by
  rw [lockRound_eq]
  exact .round asks (s.store.locks.decides_request lw.owner lw.id first)

theorem turn_advance (s : Ledger) (program : Program α) :
    Worker.Turn s (.ready program) (advance s program).1 (advance s program).2 := by
  unfold advance
  split
  · exact .finish _
  · next owner id timeout existing next =>
    split
    · next absent =>
      simp only [Bool.and_eq_true,Bool.not_eq_true'] at absent
      obtain ⟨rfl,absent⟩ := absent
      exact .missing owner id timeout next absent
    · next present =>
      refine turn_lockRound (.first owner id timeout existing next ?_)
      intro same
      subst same
      simpa using present
  · exact .doze _ _ _
  · next c next not_acquire not_sleep =>
    refine .answer c next ?_
    cases c with
    | acquire owner id timeout existing =>
      exact (not_acquire owner id timeout existing next rfl HEq.rfl).elim
    | sleep d watched => exact (not_sleep d watched next rfl HEq.rfl).elim
    | _ => rfl

theorem move_cases (p : Pool α) (m : Move) :
    (∃ d, p.move m = { p with ledger := p.ledger.elapse d }) ∨ p.move m = p ∨
      ∃ i w after s, p.workers[i]? = some w ∧ Worker.Turn p.ledger w after s ∧
        p.move m = p.update i (after, s) ∧
          (m = .step i ∨ m = .expire i ∧ ∃ lw next, w = .blocked lw next) := by
  cases m with
  | elapse d => exact .inl ⟨d,rfl⟩
  | step i =>
    refine .inr ?_
    change p.step i = p ∨ ∃ j w after s, p.workers[j]? = some w ∧
      Worker.Turn p.ledger w after s ∧ p.step i = p.update j (after, s) ∧ _
    unfold step
    split
    · next program present =>
      exact .inr ⟨i,_,_,_,present,turn_advance p.ledger program,rfl,.inl rfl⟩
    · next wake watched next present =>
      split
      · next stopped =>
        obtain ⟨rfl,cancelled⟩ : watched = true ∧ p.ledger.isCancelled = true := by simpa using stopped
        exact .inr ⟨i,_,_,_,present,.cut wake next cancelled,rfl,.inl rfl⟩
      · split
        · next due => exact .inr ⟨i,_,_,_,present,.rise wake watched next due,rfl,.inl rfl⟩
        · exact .inl rfl
    · next w next present =>
      split
      · exact .inr ⟨i,_,_,_,present,turn_lockRound (.again w next),rfl,.inl rfl⟩
      · exact .inl rfl
    · exact .inl rfl
  | expire i =>
    refine .inr ?_
    change p.expire i = p ∨ ∃ j w after s, p.workers[j]? = some w ∧
      Worker.Turn p.ledger w after s ∧ p.expire i = p.update j (after, s) ∧ _
    unfold expire
    split
    · next w next present =>
      split
      · exact .inl rfl
      · split
        · next taken =>
          exact .inr ⟨i,_,_,_,present,.giveUp w next _ taken,rfl,.inr ⟨rfl,w,next,rfl⟩⟩
        · exact .inr ⟨i,_,_,_,present,turn_lockRound (.again w next),rfl,.inr ⟨rfl,w,next,rfl⟩⟩
    · exact .inl rfl

@[simp] theorem ledger_update (i : Nat) (w : Worker α) (s : Ledger) :
    (p.update i (w, s)).ledger = s := rfl

theorem worker_update_self {i : Nat} {w : Worker α} (present : p.workers[i]? = some w)
    (after : Worker α) (s : Ledger) : (p.update i (after, s)).workers[i]? = some after := by
  have inside : i < p.workers.length := (List.getElem?_eq_some_iff.mp present).1
  change (List.set (if _ then _ else _) i after)[i]? = some after
  split <;> simp [inside]

theorem worker_update_other {i j : Nat} (other : j ≠ i) (after : Worker α) (s : Ledger) :
    (p.update i (after, s)).workers[j]? = (p.workers[j]?).map fun w =>
      if s.store.locks.heldCount < p.ledger.store.locks.heldCount then w.wake else w := by
  change (List.set (if _ then _ else _) i after)[j]? = _
  rw [List.getElem?_set_ne (Ne.symm other)]
  split
  · rw [List.getElem?_map]
  · simp

theorem length_workers_move (p : Pool α) (m : Move) : (p.move m).workers.length = p.workers.length := by
  rcases p.move_cases m with ⟨d,passes⟩ | same | ⟨i,w,after,s,_,_,moved,_⟩
  · rw [passes]
  · rw [same]
  · rw [moved]
    change (List.set (if _ then _ else _) i after).length = _
    rw [List.length_set]
    split
    · exact List.length_map _
    · rfl

theorem length_workers_play (p : Pool α) (moves : List Move) : (p.play moves).workers.length = p.workers.length := by
  induction moves generalizing p with
  | nil => rfl
  | cons m moves ih => exact (ih (p.move m)).trans (p.length_workers_move m)

theorem wait?_update_self {i : Nat} {w : Worker α} (present : p.workers[i]? = some w)
    (after : Worker α) (s : Ledger) : (p.update i (after, s)).wait? i = after.wait? := by
  rw [wait?,worker_update_self present]
  rfl

theorem wait?_update_other {i j : Nat} (other : j ≠ i) (after : Worker α) (s : Ledger) :
    (p.update i (after, s)).wait? j = (p.wait? j).map fun lw =>
      if s.store.locks.heldCount < p.ledger.store.locks.heldCount then lw.wake else lw := by
  rw [wait?,worker_update_other other,wait?]
  cases p.workers[j]? with
  | none => rfl
  | some w => cases w <;> by_cases freed : s.store.locks.heldCount < p.ledger.store.locks.heldCount <;>
      simp [freed,Worker.wake,Worker.wait?,LockWait.wake]

theorem wait?_of_present {i : Nat} {w : Worker α} (present : p.workers[i]? = some w) :
    p.wait? i = w.wait? := by
  rw [wait?,present]
  rfl

theorem exists_wait_update {i j : Nat} (other : j ≠ i) (after : Worker α) (s : Ledger) {lw : LockWait}
    (waited : p.wait? j = some lw) :
    ∃ now, (p.update i (after, s)).wait? j = some now ∧ now.owner = lw.owner ∧ now.id = lw.id := by
  rw [wait?_update_other other,waited]
  refine ⟨_,rfl,?_⟩
  split <;> exact ⟨rfl,rfl⟩

theorem wait?_start (s : Ledger) (programs : List (Program α)) (i : Nat) :
    (start s programs).wait? i = none := by
  unfold wait? start
  rw [List.getElem?_map]
  cases programs[i]? <;> rfl

end Pool

end VersionedLedger

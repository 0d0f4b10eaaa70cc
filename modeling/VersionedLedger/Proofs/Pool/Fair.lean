import Mathlib.Order.Basic
import VersionedLedger.Proofs.Pool.Turn

/-! Schedules without end. A worker that is given its turns again and again, while time passes, comes to its end:
programs are finite along every path of replies, a sleep is over at its time, and a wait for a lock at its deadline. -/
namespace VersionedLedger

variable {α : Type}

theorem Ledger.clock_answer_le (s : Ledger) {c : Call} (prompt : c.waits = false) : s.clock ≤ (s.answer c).2.clock := by
  have clock_report (s : Ledger) (events : List Event) : (s.report events).clock = s.clock := by
    unfold report
    split <;> rfl
  have clock_onBreaker {β : Type} (h : CircuitHandle) (act : Breaker → Time → β × Breaker × List Event) :
      s.clock ≤ (s.onBreaker h act).2.clock := by
    unfold onBreaker
    dsimp only
    split
    · rw [clock_report]
      exact Nat.le_succ _
    · exact Nat.le_succ _
  cases c with
  | acquire | sleep => cases prompt
  | checkFault operation =>
    obtain ⟨n,drawn⟩ := (s.elapse s.store.faults.latency).exists_draw_eq
    have later : (s.checkFault operation).2.clock = s.clock + s.store.faults.latency := by
      unfold checkFault
      rw [drawn]
      rfl
    exact later.symm ▸ Nat.le_add_right _ _
  | draw =>
    obtain ⟨n,drawn⟩ := s.exists_draw_eq
    change s.clock ≤ s.draw.2.clock
    rw [drawn]
  | admitCall h => exact clock_onBreaker h _
  | recordCall h => exact clock_onBreaker h _
  | report e => exact Nat.le_of_eq (clock_report s [e]).symm
  | _ => exact Nat.le_refl _

theorem LockManager.request_untaken {m : LockManager} {owner : TxnId} {id : RecordId} (first : Bool)
    (untaken : m.table.heldByOther owner id = false) : (m.request owner id first).1 ≠ .waiting := by
  intro waits
  have decides := m.decides_request owner id first
  rw [waits] at decides
  generalize (m.request owner id first).2 = after at decides
  cases decides with
  | waiting holder taken other =>
    rw [LockTable.heldByOther,taken] at untaken
    simp [other] at untaken

namespace Worker

/-- What a worker may be when it has made the first step of a program. -/
inductive Begun : Program α → Worker α → Prop
  | ended (a : α) : Begun (.done a) (finished a)
  | replied (c : Call) (next : c.Reply → Program α) (r : c.Reply) : Begun (.call c next) (ready (next r))
  | dozing (d : Duration) (watched : Bool) (next : Bool → Program α) (wake : Time) :
    Begun (.call (.sleep d watched) next) (asleep wake watched next)
  | waiting (owner : TxnId) (id : RecordId) (timeout : Option Duration) (existing : Bool)
      (next : Outcome Unit → Program α) (w : LockWait) :
    Begun (.call (.acquire owner id timeout existing) next) (blocked w next)

theorem begun_of_turn {s s' : Ledger} {q : Program α} {after : Worker α} (turn : Turn s (ready q) after s') :
    Begun q after := by
  cases turn with
  | finish a => exact .ended a
  | doze d watched next => exact .dozing d watched next _
  | answer c next prompt => exact .replied c next _
  | missing owner id timeout next absent => exact .replied (.acquire owner id timeout true) next _
  | @round _ w first next r locks asks decides =>
    cases asks with
    | first owner id timeout existing next present =>
      cases r with
      | granted | held | deadlock => exact .replied (.acquire owner id timeout existing) next _
      | waiting => exact .waiting owner id timeout existing next _

end Worker

namespace Pool

variable {p : Pool α} {i : Nat} {m : Move} {q : Program α} {schedule : Nat → Move}

theorem clock_move_le (p : Pool α) (m : Move) : p.ledger.clock ≤ (p.move m).ledger.clock := by
  rcases p.move_cases m with ⟨d,passes⟩ | same | ⟨i,w,after,s,_,turn,moved,_⟩
  · rw [passes]
    exact Nat.le_add_right _ _
  · rw [same]
  · rw [moved]
    cases turn with
    | answer c next prompt => exact p.ledger.clock_answer_le prompt
    | _ => exact Nat.le_refl _

theorem worker_stays {w : Worker α} (present : p.workers[i]? = some w)
    (idle : m = .step i ∨ m = .expire i → p.move m = p) :
    (p.move m).workers[i]? = some w ∨ (p.move m).workers[i]? = some w.wake := by
  by_cases own : m = .step i ∨ m = .expire i
  · rw [idle own]
    exact .inl present
  · rcases p.move_cases m with ⟨d,passes⟩ | same | ⟨j,_,after,s,_,_,moved,made⟩
    · rw [passes]
      exact .inl present
    · rw [same]
      exact .inl present
    · have other : i ≠ j := by
        rintro rfl
        exact own (made.imp_right And.left)
      rw [moved,worker_update_other other,present,Option.map_some]
      split
      · exact .inr rfl
      · exact .inl rfl

theorem expire_unblocked {w : Worker α} (present : p.workers[i]? = some w) (unblocked : w.wait? = none) :
    p.move (.expire i) = p := by
  change p.expire i = p
  unfold expire
  rw [present]
  cases w with
  | blocked => cases unblocked
  | _ => rfl

theorem ready_stays (present : p.workers[i]? = some (.ready q)) (elsewhere : m ≠ .step i) :
    (p.move m).workers[i]? = some (.ready q) :=
  (worker_stays present fun own => by
    rw [own.resolve_left elsewhere]
    exact expire_unblocked present rfl).elim id id

variable {wake : Time} {watched : Bool} {next : Bool → Program α}

theorem asleep_stays (present : p.workers[i]? = some (.asleep wake watched next)) (m : Move) :
    (∃ r, (p.move m).workers[i]? = some (.ready (next r))) ∨
      (p.move m).workers[i]? = some (.asleep wake watched next) := by
  rcases p.move_cases m with ⟨d,passes⟩ | same | ⟨j,before,after,s,here,turn,moved,_⟩
  · rw [passes]
    exact .inr present
  · rw [same]
    exact .inr present
  · rw [moved]
    by_cases own : i = j
    · subst own
      cases present.symm.trans here
      rw [worker_update_self present]
      cases turn with
      | rise => exact .inl ⟨true,rfl⟩
      | cut => exact .inl ⟨false,rfl⟩
      | round asks => cases asks
    · rw [worker_update_other own,present,Option.map_some]
      split <;> exact .inr rfl

theorem finished_stays {a : α} (present : p.workers[i]? = some (.finished a)) (m : Move) :
    (p.move m).workers[i]? = some (.finished a) := by
  refine (worker_stays present ?_).elim id id
  rintro (rfl | rfl)
  · change p.step i = p
    unfold step
    rw [present]
  · exact expire_unblocked present rfl

theorem step_ready (present : p.workers[i]? = some (.ready q)) :
    ∃ w, (p.move (.step i)).workers[i]? = some w ∧ Worker.Begun q w := by
  have stepped : p.move (.step i) = p.update i (advance p.ledger q) := by
    change p.step i = _
    rw [step,present]
  rw [stepped]
  exact ⟨_,worker_update_self present _ _,Worker.begun_of_turn (turn_advance p.ledger q)⟩

theorem step_asleep (present : p.workers[i]? = some (.asleep wake watched next)) (due : wake ≤ p.ledger.clock) :
    ∃ r, (p.move (.step i)).workers[i]? = some (.ready (next r)) := by
  change ∃ r, (p.step i).workers[i]? = _
  unfold step
  rw [present]
  dsimp only
  rw [if_pos due]
  split
  · exact ⟨false,worker_update_self present _ _⟩
  · exact ⟨true,worker_update_self present _ _⟩

theorem blocked_waits {w : LockWait} {next : Outcome Unit → Program α} (present : p.workers[i]? = some (.blocked w next))
    (m : Move) : (∃ r, (p.move m).workers[i]? = some (.ready (next r))) ∨
      ∃ w', (p.move m).workers[i]? = some (.blocked w' next) ∧ w'.deadline = w.deadline := by
  rcases p.move_cases m with ⟨d,passes⟩ | same | ⟨j,before,after,s,here,turn,moved,_⟩
  · rw [passes]
    exact .inr ⟨w,present,rfl⟩
  · rw [same]
    exact .inr ⟨w,present,rfl⟩
  · rw [moved]
    by_cases own : i = j
    · subst own
      cases present.symm.trans here
      rw [worker_update_self present]
      cases turn with
      | giveUp => exact .inl ⟨_,rfl⟩
      | @round _ _ _ _ r _ asks _ =>
        cases asks with
        | again =>
          cases r with
          | granted | held | deadlock => exact .inl ⟨_,rfl⟩
          | waiting => exact .inr ⟨_,rfl,rfl⟩
    · rw [worker_update_other own,present,Option.map_some]
      split
      · exact .inr ⟨_,rfl,rfl⟩
      · exact .inr ⟨w,rfl,rfl⟩

theorem expire_blocked {w : LockWait} {next : Outcome Unit → Program α}
    (present : p.workers[i]? = some (.blocked w next)) (due : w.deadline ≤ p.ledger.clock) :
    ∃ r, (p.move (.expire i)).workers[i]? = some (.ready (next r)) := by
  change ∃ r, (p.expire i).workers[i]? = _
  unfold expire
  rw [present]
  dsimp only
  rw [if_neg (Nat.not_lt_of_le due)]
  split
  · exact ⟨_,worker_update_self present _ _⟩
  · next untaken =>
    have decided := LockManager.request_untaken false (Bool.eq_false_of_not_eq_true untaken)
    rw [lockRound_eq,worker_update_self present]
    generalize (p.ledger.store.locks.request w.owner w.id false).1 = r at decided
    cases r with
    | granted | held | deadlock => exact ⟨_,rfl⟩
    | waiting => exact absurd rfl decided

def along (p : Pool α) (schedule : Nat → Move) : Nat → Pool α
  | 0 => p
  | n + 1 => (p.along schedule n).move (schedule n)

theorem along_eq_play (p : Pool α) (schedule : Nat → Move) (n : Nat) :
    p.along schedule n = p.play ((List.range n).map schedule) := by
  induction n with
  | zero => rfl
  | succ n ih =>
    rw [List.range_succ,List.map_append,play_append,← ih]
    rfl

theorem clock_along_le (p : Pool α) (schedule : Nat → Move) {n m : Nat} (later : n ≤ m) :
    (p.along schedule n).ledger.clock ≤ (p.along schedule m).ledger.clock := by
  induction m, later using Nat.le_induction with
  | base => exact Nat.le_refl _
  | succ m _ ih => exact ih.trans ((p.along schedule m).clock_move_le (schedule m))

/-- A worker is given its turns again and again, and time passes. Nothing is asked for the other workers. -/
structure Fair (p : Pool α) (schedule : Nat → Move) (i : Nat) : Prop where
  steps : ∀ n, ∃ m ≥ n, schedule m = .step i
  ends : ∀ n, ∃ m ≥ n, schedule m = .expire i
  passes : ∀ t, ∃ n, t ≤ (p.along schedule n).ledger.clock

theorem exists_turn (lasts turn : Nat → Prop) {n : Nat} (again : ∀ n, ∃ m ≥ n, turn m)
    (next : ∀ m, lasts m → ¬ turn m → lasts (m + 1)) (now : lasts n) : ∃ m ≥ n, lasts m ∧ turn m := by
  by_contra never
  have ever (m : Nat) (later : n ≤ m) : lasts m := by
    induction m, later using Nat.le_induction with
    | base => exact now
    | succ m later ih => exact next m ih fun turns => never ⟨m,later,ih,turns⟩
  obtain ⟨m,later,turns⟩ := again n
  exact never ⟨m,later,ever m later,turns⟩

namespace Fair

variable {n : Nat}

theorem late (fair : p.Fair schedule i) {made : Move} (again : ∀ n, ∃ m ≥ n, schedule m = made) (t : Time) (n : Nat) :
    ∃ m ≥ n, schedule m = made ∧ t ≤ (p.along schedule m).ledger.clock := by
  obtain ⟨k,passed⟩ := fair.passes t
  obtain ⟨m,later,turns⟩ := again (max n k)
  exact ⟨m,(le_max_left n k).trans later,turns,
    passed.trans (p.clock_along_le schedule ((le_max_right n k).trans later))⟩

theorem begins (fair : p.Fair schedule i) (present : (p.along schedule n).workers[i]? = some (.ready q)) :
    ∃ m ≥ n, ∃ w, (p.along schedule m).workers[i]? = some w ∧ Worker.Begun q w := by
  obtain ⟨m,later,here,turns⟩ := exists_turn (fun m => (p.along schedule m).workers[i]? = some (.ready q)) _
    fair.steps (fun m here elsewhere => ready_stays here elsewhere) present
  obtain ⟨w,after,begun⟩ := step_ready here
  refine ⟨m + 1,later.trans (Nat.le_succ m),w,?_,begun⟩
  rw [along,turns]
  exact after

theorem rises (fair : p.Fair schedule i) {wake : Time} {watched : Bool} {next : Bool → Program α}
    (present : (p.along schedule n).workers[i]? = some (.asleep wake watched next)) :
    ∃ m ≥ n, ∃ r, (p.along schedule m).workers[i]? = some (.ready (next r)) := by
  let asleep (m : Nat) : Prop := (p.along schedule m).workers[i]? = some (.asleep wake watched next)
  let ready (m : Nat) : Prop := ∃ r, (p.along schedule m).workers[i]? = some (.ready (next r))
  let due (m : Nat) : Prop := schedule m = .step i ∧ wake ≤ (p.along schedule m).ledger.clock
  -- a sleep that is cut short is over before its time
  obtain ⟨m,later,here,turns⟩ := exists_turn asleep (fun m => ready (m + 1) ∨ due m)
    (fun n => (fair.late fair.steps wake n).imp fun m late => ⟨late.1,.inr late.2⟩)
    (fun m here unmoved => (asleep_stays here (schedule m)).resolve_left (unmoved ∘ .inl)) present
  refine ⟨m + 1,later.trans (Nat.le_succ m),turns.elim id ?_⟩
  rintro ⟨turns,passed⟩
  change ∃ r, ((p.along schedule m).move (schedule m)).workers[i]? = _
  rw [turns]
  exact step_asleep here passed

theorem answered (fair : p.Fair schedule i) {w : LockWait} {next : Outcome Unit → Program α}
    (present : (p.along schedule n).workers[i]? = some (.blocked w next)) :
    ∃ m ≥ n, ∃ r, (p.along schedule m).workers[i]? = some (.ready (next r)) := by
  let waits (m : Nat) : Prop := ∃ w', (p.along schedule m).workers[i]? = some (.blocked w' next) ∧
    w'.deadline = w.deadline
  let ready (m : Nat) : Prop := ∃ r, (p.along schedule m).workers[i]? = some (.ready (next r))
  let due (m : Nat) : Prop := schedule m = .expire i ∧ w.deadline ≤ (p.along schedule m).ledger.clock
  have waits_on (m : Nat) (here : waits m) : ready (m + 1) ∨ waits (m + 1) := by
    obtain ⟨w',waiting,same⟩ := here
    rcases blocked_waits waiting (schedule m) with answered | ⟨w'',still,kept⟩
    · exact .inl answered
    · exact .inr ⟨w'',still,kept.trans same⟩
  -- a lock that is freed in time answers before the deadline does
  obtain ⟨m,later,⟨w',waiting,same⟩,turns⟩ := exists_turn waits (fun m => ready (m + 1) ∨ due m)
    (fun n => (fair.late fair.ends w.deadline n).imp fun m late => ⟨late.1,.inr late.2⟩)
    (fun m here unmoved => (waits_on m here).resolve_left (unmoved ∘ .inl)) ⟨w,present,rfl⟩
  refine ⟨m + 1,later.trans (Nat.le_succ m),turns.elim id ?_⟩
  rintro ⟨turns,passed⟩
  change ∃ r, ((p.along schedule m).move (schedule m)).workers[i]? = _
  rw [turns]
  exact expire_blocked waiting (same ▸ passed)

/-- A worker that is treated fairly comes to its end, whatever the others do. -/
theorem finishes (fair : p.Fair schedule i) {w : Worker α} (present : (p.along schedule n).workers[i]? = some w) :
    ∃ a, ∃ m ≥ n, (p.along schedule m).workers[i]? = some (.finished a) := by
  let ends (n : Nat) : Prop := ∃ a, ∃ m ≥ n, (p.along schedule m).workers[i]? = some (.finished a)
  have sooner {n m : Nat} (later : n ≤ m) : ends m → ends n
    | ⟨a,k,after,ended⟩ => ⟨a,k,later.trans after,ended⟩
  -- by induction on what is left of the program: every reply leads to a smaller rest
  have run (q : Program α) : ∀ n, (p.along schedule n).workers[i]? = some (.ready q) → ends n := by
    induction q with
    | done a =>
      intro n present
      obtain ⟨m,later,w,here,begun⟩ := fair.begins present
      cases begun
      exact ⟨a,m,later,here⟩
    | call c next ih =>
      intro n present
      obtain ⟨m,later,w,here,begun⟩ := fair.begins present
      refine sooner later ?_
      cases begun with
      | replied _ _ r => exact ih r m here
      | dozing d watched next wake =>
        obtain ⟨k,after,r,ready⟩ := fair.rises here
        exact sooner after (ih r k ready)
      | waiting owner id timeout existing next lw =>
        obtain ⟨k,after,r,ready⟩ := fair.answered here
        exact sooner after (ih r k ready)
  cases w with
  | ready q => exact run q n present
  | asleep wake watched next =>
    obtain ⟨m,later,r,ready⟩ := fair.rises present
    exact sooner later (run _ m ready)
  | blocked lw next =>
    obtain ⟨m,later,r,ready⟩ := fair.answered present
    exact sooner later (run _ m ready)
  | finished a => exact ⟨a,n,Nat.le_refl n,present⟩

end Fair

theorem finished_along {a : α} {n m : Nat} (later : n ≤ m)
    (ended : (p.along schedule n).workers[i]? = some (.finished a)) :
    (p.along schedule m).workers[i]? = some (.finished a) := by
  induction m, later using Nat.le_induction with
  | base => exact ended
  | succ m _ ih => exact finished_stays ih (schedule m)

def Finished (p : Pool α) (count : Nat) : Prop := ∀ i < count, ∃ a, p.result? i = some a

theorem finished_of_fair {count : Nat} (inside : count ≤ p.workers.length) (fair : ∀ i < count, p.Fair schedule i) :
    ∃ n, ∀ m ≥ n, (p.along schedule m).Finished count := by
  induction count with
  | zero => exact ⟨0,fun _ _ i below => absurd below (Nat.not_lt_zero i)⟩
  | succ count ih =>
    obtain ⟨n,before⟩ := ih (Nat.le_of_succ_le inside) fun i below => fair i (Nat.lt_succ_of_lt below)
    have present : (p.along schedule 0).workers[count]? = some p.workers[count] := List.getElem?_eq_getElem inside
    obtain ⟨a,k,_,ended⟩ := (fair count (Nat.lt_succ_self count)).finishes present
    refine ⟨max n k,fun m later i below => ?_⟩
    rcases Nat.lt_succ_iff_lt_or_eq.mp below with first | rfl
    · exact before m ((le_max_left n k).trans later) i first
    · have kept := finished_along ((le_max_right n k).trans later) ended
      exact ⟨a,by rw [result?,kept]; rfl⟩

/-- This holds of the pool in every schedule once its first workers have come to their ends, and in every schedule that
is fair to them they do. -/
def Settles (p : Pool α) (count : Nat) (holds : Pool α → Prop) : Prop :=
  (∀ moves, (p.play moves).Finished count → holds (p.play moves)) ∧
  ∀ schedule, (∀ i < count, p.Fair schedule i) → ∃ n, ∀ m ≥ n, holds (p.along schedule m)

/-- What is reported of the pool in the end is right. -/
def Reported {R : Type} (p : Pool α) (count : Nat) (report : Pool α → Outcome R) (right : Pool α → R → Prop) : Prop :=
  p.Settles count fun p => ∃ made, report p = .ok made ∧ right p made

theorem settles_of_finished {count : Nat} {holds : Pool α → Prop} (inside : count ≤ p.workers.length)
    (ended : ∀ moves, (p.play moves).Finished count → holds (p.play moves)) : p.Settles count holds := by
  refine ⟨ended,fun schedule fair => ?_⟩
  obtain ⟨n,finished⟩ := finished_of_fair inside fair
  refine ⟨n,fun m later => ?_⟩
  rw [along_eq_play]
  refine ended _ ?_
  rw [← along_eq_play]
  exact finished m later

theorem Settles.finish {count : Nat} {holds : Pool α → Prop} (settles : p.Settles count holds)
    (finished : p.finish.Finished count) : holds p.finish := by
  obtain ⟨moves,driven⟩ := exists_play_of_drive (fun p : Pool α => p.promptMove? <|> p.pause?) moveLimit p
  rw [Pool.finish,driven] at finished ⊢
  exact settles.1 moves finished

/-- One worker after the other is given a turn, then each wait may end, and then the least time passes. -/
def inTurn (count n : Nat) : Move :=
  let k := n % (2 * count + 1)
  if k < count then .step k else if k < 2 * count then .expire (k - count) else .elapse 1

theorem inTurn_eq (count n k : Nat) (below : k < 2 * count + 1) : inTurn count ((2 * count + 1) * n + k) =
    if k < count then .step k else if k < 2 * count then .expire (k - count) else .elapse 1 := by
  simp only [inTurn,Nat.mul_add_mod,Nat.mod_eq_of_lt below]

theorem fair_inTurn (p : Pool α) {count : Nat} (inside : i < count) : p.Fair (inTurn count) i := by
  have late (n k : Nat) : n ≤ (2 * count + 1) * n + k :=
    (Nat.le_mul_of_pos_left n (Nat.succ_pos _)).trans (Nat.le_add_right _ k)
  refine ⟨fun n => ⟨_,late n i,?_⟩,fun n => ⟨_,late n (count + i),?_⟩,fun t => ?_⟩
  · rw [inTurn_eq count n i (by omega),if_pos inside]
  · rw [inTurn_eq count n (count + i) (by omega),if_neg (by omega),if_pos (by omega),Nat.add_sub_cancel_left]
  · induction t with
    | zero => exact ⟨0,Nat.zero_le _⟩
    | succ t ih =>
      obtain ⟨n,passed⟩ := ih
      refine ⟨(2 * count + 1) * n + 2 * count + 1,?_⟩
      have ticks : inTurn count ((2 * count + 1) * n + 2 * count) = .elapse 1 := by
        rw [inTurn_eq count n (2 * count) (by omega),if_neg (by omega),if_neg (by omega)]
      rw [along,ticks]
      exact Nat.succ_le_succ (passed.trans (p.clock_along_le (inTurn count) (late n _)))

end Pool

end VersionedLedger

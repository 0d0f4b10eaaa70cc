import VersionedLedger.Ledger.Operations
import VersionedLedger.Proofs.Ledger.Books
import VersionedLedger.Proofs.Pool.Recorded
import VersionedLedger.Proofs.Program.Plain

/-! What the counts of coordinated transfers add up to. A transfer is counted once, with its retries, when it ends, but
its deadlocks are counted one by one while it goes on: there are as many of them as there are retries, and one more for
every transfer that gave up. -/
namespace VersionedLedger

open Procedure Mark

variable {σ α : Type}

attribute [ext] DeadlockStats

namespace DeadlockStats

instance : Zero DeadlockStats := ⟨{}⟩

instance : Add DeadlockStats where
  add m n := ⟨m.deadlocksDetected + n.deadlocksDetected,m.retries + n.retries,m.successes + n.successes,
    m.failures + n.failures⟩

instance : AddCommMonoid DeadlockStats where
  add_assoc l m n := DeadlockStats.ext (Nat.add_assoc ..) (Nat.add_assoc ..) (Nat.add_assoc ..) (Nat.add_assoc ..)
  zero_add m := DeadlockStats.ext (Nat.zero_add _) (Nat.zero_add _) (Nat.zero_add _) (Nat.zero_add _)
  add_zero m := rfl
  add_comm m n := DeadlockStats.ext (Nat.add_comm ..) (Nat.add_comm ..) (Nat.add_comm ..) (Nat.add_comm ..)
  nsmul := nsmulRec

theorem sum_eq {ι : Type} (r : Finset ι) (f : ι → DeadlockStats) :
    ∑ i ∈ r, f i = ⟨∑ i ∈ r, (f i).deadlocksDetected,∑ i ∈ r, (f i).retries,∑ i ∈ r, (f i).successes,
      ∑ i ∈ r, (f i).failures⟩ := by
  induction r using Finset.cons_induction with
  | empty => rfl
  | cons i r new ih =>
    simp only [Finset.sum_cons,ih]
    rfl

end DeadlockStats

def DeadlockCount.stats : DeadlockCount → DeadlockStats
  | detected => ⟨1,0,0,0⟩
  | succeeded n => ⟨0,n,1,0⟩
  | failed n => ⟨0,n,0,1⟩

theorem DeadlockStats.count_eq (s : DeadlockStats) (c : DeadlockCount) : s.count c = s + c.stats := by
  cases c <;> rfl

namespace Call

def deadlocks : Call → DeadlockStats
  | countDeadlock c => c.stats
  | _ => 0

def countsDeadlock : Call → Bool
  | countDeadlock _ => true
  | _ => false

theorem deadlocks_eq_zero {c : Call} (uncounted : c.countsDeadlock = false) : c.deadlocks = 0 := by
  cases c <;> first | rfl | cases uncounted

theorem uncounted_of_ofStore {c : Call} (ofStore : c.ofStore = true) : c.countsDeadlock = false := by
  cases c <;> first | rfl | cases ofStore

theorem uncounted_of_ofLoop {c : Call} (ofLoop : c.ofLoop = true) : c.countsDeadlock = false := by
  cases c <;> first | rfl | cases ofLoop

end Call

namespace Gauge

def deadlocks : Gauge DeadlockStats where
  read := Ledger.deadlocks
  add m := m.call.deadlocks
  valid _ := True
  slow := by
    rintro ⟨c,_⟩ waits
    cases c <;> first | rfl | cases waits
  elapse _ _ := ⟨trivial,rfl⟩
  locks _ _ := ⟨trivial,rfl⟩
  answer := by
    intro s c prompt _
    refine ⟨trivial,?_⟩
    cases c with
    | countDeadlock c => exact s.deadlocks.count_eq c
    | tally => rfl
    | _ => exact (s.same_counts prompt rfl).2

end Gauge

theorem RetryOptions.Splits.sum_eq {M : Type} [AddCommMonoid M] (γ : Gauge M) {o : RetryOptions σ α}
    {operation : Procedure σ α} {s s' : σ} {trace : List Made} {marks : List (Mark α)} {worth : Outcome α → M}
    (splits : o.Splits operation marks s trace s') (alone : o.fallback = none)
    (own : ∀ m ∈ ownCalls marks, γ.add m = 0)
    (each : ∀ s calls answer s', operation.Makes s calls answer s' → γ.sum calls = worth answer) :
    γ.sum trace = ((runs marks).map worth).sum := by
  induction splits with
  | nil => rfl
  | own m rest ih =>
    obtain ⟨none,own⟩ := List.forall_mem_cons.mp own
    rw [γ.sum_cons,none,zero_add,runs_own,ih own]
  | ran made rest ih =>
    rw [γ.sum_append,each _ _ _ _ made,ih own,runs_ran,List.map_cons,List.sum_cons]
  | fell e falls => cases alone.symm.trans falls

namespace DeadlockCoordinator

variable (c : DeadlockCoordinator) (t : Transfer)

theorem classify_retryable {e : Error} : classify e = .retryable ↔ e.isDeadlock = true := by
  unfold classify
  split <;> simp_all

theorem classify_fatal {e : Error} : classify e = .fatal ↔ e.isDeadlock = false := by
  unfold classify
  split <;> simp_all

/-- What is counted of an attempt while the transfer goes on. -/
def detected : Outcome Receipt → DeadlockStats
  | .error (.error (.deadlock _)) => DeadlockCount.detected.stats
  | _ => 0

theorem sum_attempt {s s' : σ} {calls : List Made} {answer : Outcome Receipt}
    (made : (c.attempt t).Makes s calls answer s') : Gauge.deadlocks.sum calls = detected answer := by
  unfold attempt at made
  obtain ⟨first,given,_,rest,requested,ends,rfl⟩ := makes_outcome_bind.mp made
  have silent : Gauge.deadlocks.sum first = 0 := Gauge.deadlocks.sum_eq_zero fun m member =>
    Call.deadlocks_eq_zero (Call.uncounted_of_ofStore ((t.only_requested c.locking).calls requested m member))
  rw [Gauge.sum_append,silent,zero_add]
  rcases given with (e | crash) | receipt
  · dsimp only at ends
    cases e with
    | deadlock id =>
      obtain ⟨_,_,fails,rfl⟩ := (makes_perform_bind _).mp ends
      cases fails
      rfl
    | _ =>
      cases ends
      rfl
  · cases ends
    rfl
  · cases ends
    rfl

theorem plain_attempt : (c.attempt t : Procedure σ Receipt).Plain True := by
  refine plain_outcome_bind (c.locking.plain_run _ t.plain_stage) fun answer plain => ?_
  rcases answer with (e | crash) | receipt
  · dsimp only
    split
    · exact plain_perform_bind _ fun _ _ => plain_ofOutcome plain
    · exact plain_ofOutcome plain
  · exact plain_ofOutcome plain
  · exact plain_ofOutcome plain

/-- How a transfer answers once its last attempt has. Only a deadlock at the last attempt that is allowed becomes another
error. -/
inductive Answers (c : DeadlockCoordinator) (attempts : Nat) : Outcome Receipt → Except Error Receipt → Prop
  | succeeded (receipt : Receipt) : c.Answers attempts (.ok receipt) (.ok receipt)
  | unchanged (e : Error) (other : e.isDeadlock = false) (plain : e.isExhausted = false) :
    c.Answers attempts (.error (.error e)) (.error e)
  | exhausted (id : RecordId) (all : attempts = c.policy.maxAttempts) :
    c.Answers attempts (.error (.error (.deadlock id))) (.error (.attemptsExhausted attempts false (.deadlock id)))

def concluded (retries : Nat) : Except Error Receipt → DeadlockCount
  | .ok _ => .succeeded retries
  | .error _ => .failed retries

/-- A transfer is tried as long as its attempts end in deadlocks, and no more often than is allowed. -/
def Persists (s : σ) (calls : List Made) (answer : Except Error Receipt) (s' : σ) (retries : Nat) : Prop :=
  ∃ started marks looped, ∃ earlier : List Error, ∃ last,
    RetryOptions.Splits { classify } (c.attempt t) (.own ⟨.now,started⟩ :: marks) s looped s' ∧
      Made.OfLoop (ownCalls marks) ∧ calls = looped ++ [⟨.countDeadlock (concluded retries answer),()⟩] ∧
      runs marks = earlier.map (fun e => .error (.error e)) ++ [last] ∧ (∀ e ∈ earlier, e.isDeadlock = true) ∧
      retries = earlier.length ∧ retries < c.policy.maxAttempts ∧ c.Answers (retries + 1) last answer

def count : Except RetryError (RetryOutcome Receipt) → DeadlockCount
  | .ok o => .succeeded o.retries
  | .error e => .failed e.retries

theorem exists_of_transfer (valid : t.validate = .ok ()) {s s' : σ} {calls : List Made} {answer : Outcome Receipt}
    (made : (c.transfer t).Makes s calls answer s') :
    (∃ looped result, (c.policy.run { classify } (c.attempt t)).Makes s looped (.ok result) s' ∧
      calls = looped ++ [⟨.countDeadlock (count result),()⟩] ∧ answer = RetryPolicy.passed (.ok result)) ∨
    ∃ failure, (c.policy.run { classify } (c.attempt t)).Makes s calls (.error failure) s' ∧ answer = .error failure := by
  unfold transfer at made
  rw [valid] at made
  obtain ⟨_,_,made⟩ | ⟨_,⟨⟩,_⟩ := makes_ofError_bind.mp made
  rcases makes_bind_iff.mp made with ⟨looped,result,_,_,loops,ends,rfl⟩ | ⟨failure,loops,rfl⟩
  · refine .inl ⟨looped,result,?_⟩
    cases result with
    | ok o =>
      obtain ⟨_,_,returns,rfl⟩ := (makes_perform_bind _).mp ends
      cases returns
      exact ⟨loops,rfl,rfl⟩
    | error e =>
      obtain ⟨_,_,fails,rfl⟩ := (makes_perform_bind _).mp ends
      cases fails
      exact ⟨loops,rfl,rfl⟩
  · exact .inr ⟨failure,loops,rfl⟩

theorem answers_of_concludes {left n : Nat} {last : Outcome Receipt} {result : Except RetryError (RetryOutcome Receipt)}
    {answer : Except Error Receipt}
    (concludes : RetryOptions.Concludes ({ classify } : RetryOptions σ Receipt) left (n + 1) last (.ok result))
    (all : left = 0 → n + 1 = c.policy.maxAttempts) (plain : ∀ e, last = .error (.error e) → e.isExhausted = false)
    (uncancelled : ∀ k e, result ≠ .error (.cancelled k e))
    (passes : Outcome.ofError answer = RetryPolicy.passed (.ok result)) :
    count result = concluded n answer ∧ c.Answers (n + 1) last answer := by
  cases concludes with
  | succeeded r counts =>
    cases answer with
    | error e => cases passes
    | ok receipt =>
      cases passes
      exact ⟨congrArg (fun k => DeadlockCount.succeeded (k - 1)) counts,.succeeded _⟩
  | fatal e kind =>
    cases answer with
    | ok receipt => cases passes
    | error e' =>
      cases passes
      exact ⟨rfl,.unchanged e (classify_fatal.mp kind) (plain e rfl)⟩
  | exhausted e kind none =>
    cases answer with
    | ok receipt => cases passes
    | error e' =>
      cases passes
      have deadlock := classify_retryable.mp kind
      cases e with
      | deadlock id => exact ⟨rfl,.exhausted id (all none)⟩
      | _ => cases deadlock
  | awoken e kind => exact absurd rfl (uncancelled _ _)

theorem persists_transfer (valid : t.validate = .ok ()) {s s' : σ} {calls : List Made} {answer : Except Error Receipt}
    (replied : ∀ m ∈ calls, m.Answered True ∧ m.Slept)
    (made : (c.transfer t).Makes s calls (Outcome.ofError answer) s') :
    ∃ retries, c.Persists t s calls answer s' retries := by
  rcases c.exists_of_transfer t valid made with ⟨looped,result,loops,rfl,passes⟩ | ⟨failure,loops,fails⟩
  · obtain ⟨started,marks,splits,goes,decides⟩ := RetryPolicy.exists_marks loops
    generalize answers : runs marks = given at decides
    obtain ⟨earlier,retried,allowed,concludes⟩ := decides rfl rfl
    rw [Nat.zero_add] at concludes
    have inside (m : Made) (member : m ∈ looped) : m.Answered True ∧ m.Slept :=
      replied m (List.mem_append_left _ member)
    have plain (e : Error) (failed : .error (.error e) ∈ runs marks) : e.isExhausted = false := by
      obtain ⟨before,calls,after,ran,among⟩ := splits.exists_run failed
      have plain := (c.plain_attempt t before).of_makes ran (fun m member => (inside m (among m member)).1) e rfl
      cases e with
      | attemptsExhausted => exact plain.elim
      | _ => rfl
    have uncancelled (k : Nat) (e : Option Error) : result ≠ .error (.cancelled k e) := by
      rintro rfl
      obtain ⟨d,member⟩ := goes.exists_awoken rfl
      cases (inside _ (splits.mem_of_own (List.mem_cons_of_mem _ member))).2
    have positive := c.policy.maxAttempts_pos
    obtain ⟨counts,answered⟩ := c.answers_of_concludes concludes (fun none => by omega)
      (fun e last => plain e (by simp [answers,last])) uncancelled passes
    refine ⟨_,started,marks,looped,earlier,_,splits,goes.ofLoop,by rw [counts],answers,fun e member => ?_,rfl,
      by omega,answered⟩
    exact classify_retryable.mp (retried e member)
  · obtain ⟨_,marks,_,_,decides⟩ := RetryPolicy.exists_marks loops
    generalize runs marks = given at decides
    obtain ⟨_,_,_,concludes⟩ := decides rfl rfl
    cases concludes
    cases answer <;> cases fails

def gaveUp : Except Error Receipt → Bool
  | .ok _ => false
  | .error e => e.isExhausted

def total (retries : Nat) (answer : Except Error Receipt) : DeadlockStats where
  deadlocksDetected := retries + if gaveUp answer then 1 else 0
  retries
  successes := if answer.isOk then 1 else 0
  failures := if answer.isOk then 0 else 1

theorem sum_detected {earlier : List Error} (deadlocks : ∀ e ∈ earlier, e.isDeadlock = true) :
    (earlier.map fun e => detected (.error (.error e))).sum = ⟨earlier.length,0,0,0⟩ := by
  induction earlier with
  | nil => rfl
  | cons e earlier ih =>
    obtain ⟨first,deadlocks⟩ := List.forall_mem_cons.mp deadlocks
    rw [List.map_cons,List.sum_cons,ih deadlocks]
    cases e with
    | deadlock id => exact DeadlockStats.ext (Nat.add_comm ..) rfl rfl rfl
    | _ => cases first

variable {c t} in
theorem Persists.sum {s s' : σ} {calls : List Made} {answer : Except Error Receipt} {retries : Nat}
    (persists : c.Persists t s calls answer s' retries) : Gauge.deadlocks.sum calls = total retries answer := by
  obtain ⟨started,marks,looped,earlier,last,splits,own,rfl,answers,deadlocks,rfl,_,answered⟩ := persists
  have silent : ∀ m ∈ ownCalls (.own ⟨.now,started⟩ :: marks), Gauge.deadlocks.add m = 0 :=
    List.forall_mem_cons.mpr
      ⟨rfl,fun m member => Call.deadlocks_eq_zero (Call.uncounted_of_ofLoop (own m member))⟩
  have detections : Gauge.deadlocks.sum looped = ⟨earlier.length,0,0,0⟩ + detected last := by
    rw [splits.sum_eq Gauge.deadlocks rfl silent fun _ _ _ _ => c.sum_attempt t,runs_own,answers]
    rw [List.map_append,List.map_map,List.sum_append,List.map_singleton,List.sum_singleton]
    exact congrArg (· + detected last) (sum_detected deadlocks)
  rw [Gauge.sum_append,detections,Gauge.sum_cons,Gauge.sum_nil,add_zero]
  cases answered with
  | succeeded receipt => exact DeadlockStats.ext rfl (Nat.zero_add _) rfl rfl
  | unchanged e other plain =>
    have undetected : detected (.error (.error e)) = 0 := by
      cases e with
      | deadlock => cases other
      | _ => rfl
    rw [undetected]
    refine DeadlockStats.ext ?_ (Nat.zero_add _) rfl rfl
    change earlier.length = earlier.length + if e.isExhausted then 1 else 0
    rw [plain]
    rfl
  | exhausted id all => exact DeadlockStats.ext rfl (Nat.zero_add _) rfl rfl

end DeadlockCoordinator

namespace Pool

open DeadlockCoordinator

/-- Transfers are coordinated one after the other or side by side, in any schedule, beside workers that count no
deadlocks. Once they have all returned, each has been counted as a success or as a failure, and the deadlocks are as many
as the retries and the transfers that gave up. -/
theorem deadlocks_balance (c : DeadlockCoordinator) {s : Ledger} (fresh : s.deadlocks = {}) {transfers : List Transfer}
    (valid : ∀ t ∈ transfers, t.validate = .ok ()) {others : List (Program (Outcome Receipt × Unit))}
    (uncounted : ∀ q ∈ others, q.Only fun call => !call.countsDeadlock) (moves : List Move)
    {answers : Nat → Except Error Receipt}
    (returned : ∀ i < transfers.length, ((start s (transfers.map (fun t => (c.transfer t).start ()) ++ others)).play
      moves).result? i = some (Outcome.ofError (answers i), ())) :
    let programs := transfers.map (fun t => (c.transfer t).start ()) ++ others
    let after := ((start s programs).play moves).ledger.deadlocks
    after.successes + after.failures = transfers.length ∧
      after.deadlocksDetected =
        after.retries + (Finset.filter (fun i => gaveUp (answers i)) (Finset.range transfers.length)).card ∧
      ∀ i t, transfers[i]? = some t →
        ∃ retries, c.Persists t () (calls s programs moves i) (answers i) () retries := by
  intro programs after
  obtain ⟨said,spoken,taken⟩ := exists_spoken s programs moves
  have length : programs.length = transfers.length + others.length := by simp [programs]
  have persists (i : Nat) (t : Transfer) (named : transfers[i]? = some t) :
      ∃ retries, c.Persists t () (said i) (answers i) () retries := by
    have below : i < transfers.length := (List.getElem?_eq_some_iff.mp named).1
    obtain ⟨q,here,made⟩ := spoken.makes (returned i below)
    have called : programs[i]? = some ((c.transfer t).start ()) := by
      rw [List.getElem?_append_left (by simpa using below),List.getElem?_map,named]
      rfl
    cases here.symm.trans called
    exact c.persists_transfer t (valid t (List.mem_of_getElem? named)) (spoken.replied i) made
  have totals (i : Nat) (below : i < transfers.length) :
      ∃ retries, Gauge.deadlocks.sum (said i) = total retries (answers i) := by
    obtain ⟨retries,persists⟩ := persists i _ (List.getElem?_eq_getElem below)
    exact ⟨retries,persists.sum⟩
  have silent (i : Nat) (below : i < others.length) : Gauge.deadlocks.sum (said (transfers.length + i)) = 0 := by
    have inside : transfers.length + i < ((start s programs).play moves).workers.length := by
      rw [length_workers_play,start,List.length_map,length]
      exact Nat.add_lt_add_left below _
    obtain ⟨q,named,stands⟩ := spoken.workers _ _ (List.getElem?_eq_getElem inside)
    obtain ⟨more,a,made⟩ := stands.exists_makes s
    have other : q ∈ others := by
      rw [List.getElem?_append_right (by simp)] at named
      exact List.mem_of_getElem? named
    refine Gauge.deadlocks.sum_eq_zero fun m member => Call.deadlocks_eq_zero ?_
    simpa using (uncounted q other).calls made m (List.mem_append_left _ member)
  choose! retries each using totals
  have counted : after = ∑ i ∈ Finset.range transfers.length, total (retries i) (answers i) := by
    have read : after = s.deadlocks + _ := (spoken.added Gauge.deadlocks trivial).2
    rw [read,fresh,length,Finset.sum_range_add,Finset.sum_eq_zero fun i member => silent i (Finset.mem_range.mp member),
      add_zero,Finset.sum_congr rfl fun i member => each i (Finset.mem_range.mp member)]
    exact zero_add _
  rw [counted,DeadlockStats.sum_eq]
  refine ⟨?_,?_,fun i t named => ?_⟩
  · have once (i : Nat) : (total (retries i) (answers i)).successes + (total (retries i) (answers i)).failures = 1 := by
      unfold total
      cases (answers i).isOk <;> rfl
    rw [← Finset.sum_add_distrib,Finset.sum_congr rfl fun i _ => once i,← Finset.card_eq_sum_ones,Finset.card_range]
  · rw [Finset.card_filter,← Finset.sum_add_distrib]
    rfl
  · have below : i < transfers.length := (List.getElem?_eq_some_iff.mp named).1
    rw [taken i _ (returned i below)]
    exact persists i t named

def opposed : List Transfer := [⟨1, 2, 10⟩,⟨2, 1, 5⟩,⟨2, 1, 7⟩]

/-- So many steps of one worker after another, each after a second. The second transfer is picked once, and so is the
first one by it; at its second attempt the first one is picked again by the third. -/
def opposedMoves : List Move :=
  [(0,4),(1,4),(0,1),(1,30),(1,30),(0,30),(1,30),(2,4),(0,4),(2,1),(0,30),(2,30)].flatMap
    fun turn => .elapse 1000000000 :: List.replicate turn.2 (.step turn.1)

theorem deadlocks_balance_opposed :
    let s : Ledger := { store := .seeded [(1, 100),(2, 100)] }
    let c := Ledger.coordinator { deadlock := { maxAttempts := 2 } }
    let programs := opposed.map (fun t => (c.transfer t).start ()) ++ []
    let after := ((start s programs).play opposedMoves).ledger.deadlocks
    after = ⟨3, 2, 2, 1⟩ ∧
      (after.successes + after.failures = opposed.length ∧ after.deadlocksDetected = after.retries + 1) ∧
      ∃ retries, c.Persists ⟨1, 2, 10⟩ () (calls s programs opposedMoves 0)
        (.error (.attemptsExhausted 2 false (.deadlock 2))) () retries := by
  intro s c programs after
  let answers : Nat → Except Error Receipt
    | 0 => .error (.attemptsExhausted 2 false (.deadlock 2))
    | 1 => .ok ⟨⟨2, 1, 5⟩, 95, 105, 1, 1⟩
    | _ => .ok ⟨⟨2, 1, 7⟩, 88, 112, 2, 2⟩
  have returned : ∀ i < opposed.length, ((start s programs).play opposedMoves).result? i =
      some (Outcome.ofError (answers i), ()) := by decide +kernel
  have counted : after = ⟨3, 2, 2, 1⟩ := by decide +kernel
  have gave : (Finset.filter (fun i => gaveUp (answers i)) (Finset.range opposed.length)).card = 1 := by decide
  have valid : ∀ t ∈ opposed, t.validate = .ok () := by decide
  obtain ⟨all,detected,each⟩ := deadlocks_balance c (s := s) rfl valid (List.forall_mem_nil _) opposedMoves returned
  rw [gave] at detected
  refine ⟨counted,?_,each 0 ⟨1, 2, 10⟩ rfl⟩
  simp only [after,programs]
  exact ⟨all,detected⟩

end Pool

end VersionedLedger

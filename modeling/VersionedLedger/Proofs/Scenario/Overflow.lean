import VersionedLedger.Proofs.Scenario.Contention
import VersionedLedger.Proofs.Store.Commit

/-! Debits on a ledger whose faults never clear. In every schedule each worker gives up when it has used all its
attempts up, so the sums of the report grow with the attempts that are allowed, and enough of them leave their words. -/
namespace VersionedLedger

open Procedure Pool

namespace Faults

/-- Every check fails, and so do all after it. -/
structure Failing (f : Faults) : Prop where
  unscripted : f.script = []
  certain : million ≤ f.rate

variable {f : Faults} {number : Nat}

theorem Failing.due (failing : f.Failing) (drawn : number < million) : f.Due number :=
  .inr ⟨failing.unscripted,.inr (Nat.lt_of_lt_of_le drawn failing.certain)⟩

theorem Failing.check (failing : f.Failing) (number : Nat) (operation : String) :
    (f.check number operation).2.Failing := by
  have left : (f.due number).2.Failing := by
    unfold Faults.due
    rw [failing.unscripted]
    dsimp only
    split
    · exact ⟨rfl,failing.certain⟩
    · exact failing
  unfold Faults.check
  dsimp only
  split
  · exact ⟨left.unscripted,left.certain⟩
  · exact left

end Faults

namespace Ledger

variable {s : Ledger} {r : Record} {c : Call}

/-- Nothing is written any more: the record stays as it is, and every check of a write fails. -/
structure Stuck (s : Ledger) (r : Record) : Prop where
  here : s.store.view r.id = some r
  failing : s.store.faults.Failing

theorem Stuck.fails (stuck : s.Stuck r) (operation : String) :
    (s.checkFault operation).1 = .error (.unavailable s!"injected fault during {operation}") :=
  checkFault_of_due (stuck.failing.due (Nat.mod_lt _ (by decide)))

theorem Stuck.checkFault (stuck : s.Stuck r) (operation : String) : (s.checkFault operation).2.Stuck r := by
  obtain ⟨n,drawn⟩ := (s.elapse s.store.faults.latency).exists_draw_eq
  unfold Ledger.checkFault
  rw [drawn]
  exact ⟨stuck.here,stuck.failing.check _ operation⟩

theorem Stuck.of_aside (stuck : s.Stuck r) (aside : c.aside = true) : (s.answer c).2.Stuck r := by
  have same := store_answer_of_aside (s := s) aside
  exact ⟨same ▸ stuck.here,same ▸ stuck.failing⟩

end Ledger

/-- Reads find the record, checks fail, and nothing is called that would only follow a check that passes. -/
def Rule.failing (r : Record) : Rule Unit
  | .lookup id, promise, g => id = r.id ∧ promise (some r) g
  | .checkFault operation, promise, g => promise (.error (.unavailable s!"injected fault during {operation}")) g
  | .sleep _ watched, promise, g => ∀ slept, (slept = false → watched = true) → promise slept g
  | c, promise, g => c.aside = true ∧ ∀ answer, promise answer g

variable {r : Record}

theorem Rule.failing_monotone : (Rule.failing r).Monotone := by
  intro c strong weak g implies obeys
  cases c with
  | lookup id => exact ⟨obeys.1,implies _ _ obeys.2⟩
  | checkFault operation => exact implies _ _ obeys
  | sleep d watched => exact fun slept cut => implies _ _ (obeys slept cut)
  | _ => exact ⟨obeys.1,fun answer => implies _ _ (obeys.2 answer)⟩

theorem Rule.failing_keeps (known : Unit → Prop) : (Rule.failing r).Keeps Call.aside known := by
  intro c aside promise g start replied
  cases c with
  | sleep d watched => exact fun slept _ => replied slept g start
  | lookup | checkFault => cases aside
  | _ => exact ⟨aside,fun answer => replied answer g start⟩

def failingPact (r : Record) : Pact Unit where
  rule _ := Rule.failing r
  holds s _ := s.Stuck r
  acquires obeys := by cases obeys.1
  sleeps obeys := obeys
  elapse _ stuck := ⟨stuck.here,stuck.failing⟩
  locks _ stuck := ⟨stuck.here,stuck.failing⟩
  answer {i c promise s g} prompt obeys stuck := by
    refine ⟨(),?_⟩
    cases c with
    | lookup id =>
      obtain ⟨rfl,found⟩ := obeys
      refine ⟨?_,stuck⟩
      change promise (s.store.view r.id) ()
      rwa [stuck.here]
    | checkFault operation =>
      refine ⟨?_,stuck.checkFault operation⟩
      change promise (s.checkFault operation).1 ()
      rw [stuck.fails operation]
      exact obeys
    | sleep => cases prompt
    | _ => exact ⟨obeys.2 _,stuck.of_aside obeys.1⟩

namespace Scenario

variable {s : Ledger} {amount balance : Amount} {retry : RetryConfig} {operations : Nat}

def injected : Error := .unavailable "injected fault during conditional_update"

def usedUp (retry : RetryConfig) : WorkerResult Nat := .error (.attemptsExhausted (max retry.maxAttempts 1) false injected)

theorem failing_debit (allowed : Account.debit r.balance amount = .ok balance) :
    (Optimistic.debit r.id amount : Procedure Unit Update).Obeys (Rule.failing r)
      (fun answer _ _ => answer = .error (.error injected)) () () := by
  unfold Optimistic.debit Optimistic.update Optimistic.read Optimistic.conditionalUpdate
  simp only [obeys_bind,obeys_perform]
  refine ⟨rfl,?_⟩
  simp only [obeys_pure,obeys_ofError,allowed,Outcome.ofError]
  rfl

theorem failing_worker (allowed : Account.debit r.balance amount = .ok balance) (retry : RetryConfig) :
    (optimisticWorker r.id amount retry).Obeys (Rule.failing r) (fun result _ => result = usedUp retry) () := by
  refine obeys_worker.mpr ?_
  simp only [Ledger.optimisticUpdate,RetryPolicy.attempt,RetryPolicy.run,obeys_bind,obeys_perform]
  refine ⟨rfl,fun now => ?_⟩
  have sleeps (i : Nat) (d : Duration) (promise : Bool → Unit → Prop) (g : Unit) (_ : True)
      (promised : ∀ g, True → promise true g) : Rule.failing r (.sleep d false) promise g := by
    rintro (_ | _) cut
    · cases cut rfl
    · exact promised g trivial
  have fails : ∀ i < max retry.maxAttempts 1, ∀ (s g : Unit), True →
      (Optimistic.debit r.id amount : Procedure Unit Update).Obeys (Rule.failing r)
        (fun answer _ _ => answer = .error (.error injected) ∧ True) s g :=
    fun _ _ _ _ _ => (failing_debit allowed).mono Rule.failing_monotone fun _ _ _ ended => ⟨ended,trivial⟩
  have last : 0 + (max retry.maxAttempts 1 - 1) + 1 = max retry.maxAttempts 1 := by omega
  have known (_ : Nat) : (Rule.failing r).Keeps Call.aside fun _ => True := Rule.failing_keeps _
  -- the attempts are used up before one would succeed, so nothing is known of what follows a success
  have after (_ : Update) : (Rule.failing r).Keeps Call.aside fun _ => True := Rule.failing_keeps _
  refine ((Ledger.retryPolicy "optimistic_update" retry).obeys_loop_until Rule.failing_monotone known after sleeps rfl
    rfl rfl fails (max retry.maxAttempts 1 - 1) { started := now } (fun reached => ?_) (Nat.zero_le _) trivial).mono
    Rule.failing_monotone fun answer _ _ ended => ?_
  · dsimp only at reached
    omega
  · dsimp only at ended
    rw [last] at ended
    obtain ⟨rfl,_⟩ := ended.2 (by omega)
    rfl

theorem results_of_failing (stuck : s.Stuck r) (allowed : Account.debit r.balance amount = .ok balance)
    (moves : List Move)
    (finished : ((start s (List.replicate operations (optimisticWorker r.id amount retry))).play moves).Finished operations) :
    ((start s (List.replicate operations (optimisticWorker r.id amount retry))).play moves).results operations =
      List.replicate operations (usedUp retry) := by
  have begins : (start s (List.replicate operations (optimisticWorker r.id amount retry))).Keeps (failingPact r)
      (fun _ result _ => result = usedUp retry) fun _ => () := by
    refine keeps_start stuck fun i q named => ?_
    rw [(List.mem_replicate.mp (List.mem_of_getElem? named)).2]
    exact failing_worker allowed retry
  obtain ⟨g,keeps⟩ := begins.play moves
  refine List.eq_replicate_iff.mpr ⟨length_results finished,fun result member => ?_⟩
  obtain ⟨i,_,ended⟩ := mem_results member
  exact keeps.result ended

theorem overflows_of_failing (stuck : s.Stuck r) (allowed : Account.debit r.balance amount = .ok balance)
    (many : UInt32.size ≤ operations * (max retry.maxAttempts 1 - 1)) :
    (start s (List.replicate operations (optimisticWorker r.id amount retry))).Settles operations fun p =>
      optimisticReport s r amount operations p = .error (.crash .sumOverflow) := by
  have answers := optimistic_answers stuck.here amount operations retry (List.forall_mem_nil _)
  rw [List.append_nil] at answers
  refine settles_of_finished (by simp [Pool.start]) fun moves finished => (answers.1 moves finished).crashed fun fits => ?_
  have sum := fits.1
  rw [results_of_failing stuck allowed moves finished,sumOver_replicate] at sum
  exact absurd sum (Nat.not_lt.mpr many)

def brokenRecord : Ledger := { store := { Store.seeded [(1, 100)] with faults := { rate := Faults.million } } }

/-- Two workers that may make 2 ^ 31 + 1 attempts each: every schedule that comes to their ends comes to a crash, and so
does the one that gives them their turns. -/
theorem contention_overflows :
    let retry : RetryConfig := { maxAttempts := 2147483649, baseDelay := 0, maxDelay := 0 }
    let p := start brokenRecord (List.replicate 2 (optimisticWorker 1 60 retry))
    (∀ moves, (p.play moves).Finished 2 →
      optimisticReport brokenRecord ⟨1, 100, 0⟩ 60 2 (p.play moves) = .error (.crash .sumOverflow)) ∧
    ∃ n, ∀ m ≥ n, optimisticReport brokenRecord ⟨1, 100, 0⟩ 60 2 (p.along (inTurn 2) m) =
      .error (.crash .sumOverflow) := by
  intro retry p
  have stuck : brokenRecord.Stuck ⟨1, 100, 0⟩ := ⟨by decide +kernel,rfl,Nat.le_refl _⟩
  have allowed : Account.debit (Record.balance ⟨1, 100, 0⟩) 60 = .ok 40 := by decide
  have many : UInt32.size ≤ 2 * (max retry.maxAttempts 1 - 1) := by decide
  have overflows := overflows_of_failing stuck allowed many
  exact ⟨overflows.1,overflows.2 (inTurn 2) fun i below => fair_inTurn _ below⟩

end Scenario

end VersionedLedger

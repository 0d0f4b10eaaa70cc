import VersionedLedger.Proofs.Pool.Recorded
import VersionedLedger.Proofs.Program.Counted
import VersionedLedger.Proofs.Program.Plain
import VersionedLedger.Scenario.Contention

/-! The attempts of a worker that debits a record, and what its result tells of them. They are told if the worker
succeeds or has used all of them up; of one that ends with another error, or crashes, one attempt is told. -/
namespace VersionedLedger

open Procedure Mark Pool

variable {σ α : Type}

namespace RetryPolicy

/-- So often a loop has run its operation, if these were its calls. -/
def Attempted (p : RetryPolicy) (operation : Procedure σ α) (calls : List Made) (attempts : Nat) : Prop :=
  ∃ s s' started marks answer, RetryOptions.Splits {} operation (.own ⟨.now,started⟩ :: marks) s calls s' ∧
    p.Loops ({} : RetryOptions σ α) { started } marks answer ∧ attempts = (runs marks).length

end RetryPolicy

def Made.isAttempt : Made → Bool
  | ⟨.report (.attempt ..),_⟩ => true
  | _ => false

theorem Made.not_isAttempt_of_ofStore {m : Made} (ofStore : m.call.ofStore = true) : m.isAttempt = false := by
  obtain ⟨c,r⟩ := m
  cases c with
  | report => cases ofStore
  | _ => rfl

namespace RetryPolicy

variable {p : RetryPolicy} {o : RetryOptions σ α} {progress : RetryProgress} {marks : List (Mark α)}
  {answer : Outcome (Except RetryError (RetryOutcome α))}

theorem countP_attempted_le (progress : RetryProgress) (outcome : AttemptOutcome) :
    (p.attempted progress outcome).countP Made.isAttempt ≤ 1 := by
  unfold attempted reporting
  split <;> simp [Made.isAttempt]

@[simp] theorem countP_closing (summary : RetrySummary) : (p.closing summary).countP Made.isAttempt = 0 := by
  unfold closing reporting
  split <;> split <;> simp [Made.isAttempt]

theorem Ends.countP_le {result : Outcome α} (ends : p.Ends o progress result marks answer) :
    (ownCalls marks).countP Made.isAttempt ≤ 1 := by
  cases ends with
  | crashed => simp
  | _ => simp [Made.isAttempt,countP_attempted_le]

theorem Loops.countP_le (loops : p.Loops o progress marks answer) :
    (ownCalls marks).countP Made.isAttempt ≤ (runs marks).length := by
  induction loops with
  | stopped => simp [Made.isAttempt]
  | ended progress unseen ends => simpa [Made.isAttempt,ends.runs_eq] using ends.countP_le
  | @again progress _ _ _ _ e draw delay _ _ rest ih =>
    have once := p.countP_attempted_le progress.counted .retryable
    simp [round,Made.isAttempt] at ih ⊢
    omega

end RetryPolicy

theorem RetryOptions.Splits.countP_eq {o : RetryOptions σ α} {operation : Procedure σ α} {s s' : σ} {trace : List Made}
    {marks : List (Mark α)} (splits : o.Splits operation marks s trace s') (only : operation.Only Call.ofStore)
    (alone : o.fallback = none) : trace.countP Made.isAttempt = (ownCalls marks).countP Made.isAttempt := by
  induction splits with
  | nil => rfl
  | own m rest ih => rw [ownCalls_own,List.countP_cons,List.countP_cons,ih]
  | ran made rest ih =>
    have none : List.countP Made.isAttempt _ = 0 := List.countP_eq_zero.mpr fun m member =>
      Bool.eq_false_iff.mp (Made.not_isAttempt_of_ofStore (only.calls made m member))
    rw [ownCalls_ran,List.countP_append,none,ih,Nat.zero_add]
  | fell e falls => cases alone.symm.trans falls

theorem RetryPolicy.Attempted.countP_le {p : RetryPolicy} {operation : Procedure σ α} {calls : List Made}
    {attempts : Nat} (attempted : p.Attempted operation calls attempts) (only : operation.Only Call.ofStore) :
    calls.countP Made.isAttempt ≤ attempts := by
  obtain ⟨s,s',started,marks,answer,splits,loops,rfl⟩ := attempted
  rw [splits.countP_eq only rfl]
  simpa [Made.isAttempt] using loops.countP_le

theorem RetryOptions.Decides.length_le {o : RetryOptions σ α} {left before : Nat} {ran : List (Outcome α)}
    {answer : Outcome (Except RetryError (RetryOutcome α))} (decides : o.Decides left before ran answer) :
    ran.length ≤ left + 1 := by
  obtain ⟨earlier,_,allowed,_⟩ := decides
  simpa using allowed

namespace WorkerResult

def tells : WorkerResult α → Bool
  | .ok _ | .error (.attemptsExhausted ..) => true
  | .error _ => false

end WorkerResult

namespace Scenario

theorem exists_of_worker {p : Procedure Unit α} {calls : List Made} {result : WorkerResult α}
    (made : (Scenario.worker p).Makes calls result) :
    ∃ answer, p.Makes () calls answer () ∧ result = .ofOutcome answer := by
  obtain ⟨⟨answer,own⟩,worked,rfl⟩ := Program.Makes.exists_of_map made
  exact ⟨answer,worked,rfl⟩

open ContentionReport

theorem retriesOf_plain {e : Error} (plain : e.Plain True) : retriesOf (.error e) = 0 := by
  cases e with
  | attemptsExhausted => exact plain.elim
  | _ => rfl

theorem not_tells_plain {e : Error} (plain : e.Plain True) : WorkerResult.tells (.error e : WorkerResult α) = false := by
  cases e with
  | attemptsExhausted => exact plain.elim
  | _ => rfl

/-- Of an operation whose errors are plain, the attempts are told unless the loop ends with such an error for good. -/
theorem exists_attempts {p : RetryPolicy} {operation : Procedure Unit α} {calls : List Made}
    {answer : Outcome (Except RetryError (RetryOutcome α))} (plain : operation.Plain True)
    (answered : ∀ m ∈ calls, m.Answered True) (made : (p.run {} operation).Makes () calls answer ()) :
    ∃ attempts, 0 < attempts ∧ attempts ≤ p.maxAttempts ∧ p.Attempted operation calls attempts ∧
      let result := WorkerResult.ofOutcome ((RetryPolicy.told answer).map RetryOutcome.attempts)
      retriesOf result = if result.tells then attempts - 1 else 0 := by
  obtain ⟨started,marks,splits,loops,decides⟩ := RetryPolicy.exists_marks made
  have allowed : (runs marks).length ≤ p.maxAttempts - 1 + 1 := (decides rfl rfl).length_le
  rw [Nat.sub_add_cancel p.maxAttempts_pos] at allowed
  refine ⟨(runs marks).length,List.length_pos_iff.mpr (loops.runs_ne_nil rfl),allowed,
    ⟨_,_,_,_,_,splits,loops,rfl⟩,?_⟩
  cases answer with
  | error failure =>
    obtain ⟨_,c,_,rfl,_⟩ := loops.summed
    rfl
  | ok result =>
    have counted : RetryPolicy.attemptsOf result = (runs marks).length := loops.attempts.trans (Nat.zero_add _)
    rw [← counted]
    cases result with
    | ok o => rfl
    | error e =>
      cases e with
      | exhausted n fallbackUsed last => rfl
      | cancelled n last => rfl
      | fatal n e =>
        have fatal : e.Plain True := RetryPolicy.plain_of_last plain rfl answered made rfl
        change retriesOf (.error e) = if WorkerResult.tells (.error e : WorkerResult Nat) then n - 1 else 0
        rw [retriesOf_plain fatal,not_tells_plain fatal,if_neg Bool.false_ne_true]

variable {id : RecordId} {amount : Amount} {retry : RetryConfig}

theorem exists_attempts_of_worker {calls : List Made} {result : WorkerResult Nat}
    (made : (optimisticWorker id amount retry).Makes calls result) (answered : ∀ m ∈ calls, m.Answered True) :
    ∃ attempts, 0 < attempts ∧ attempts ≤ max retry.maxAttempts 1 ∧
      (Ledger.retryPolicy "optimistic_update" retry).Attempted (Optimistic.debit id amount : Procedure Unit Update)
        calls attempts ∧
      retriesOf result = if result.tells then attempts - 1 else 0 := by
  obtain ⟨_,updates,rfl⟩ := exists_of_worker made
  obtain ⟨_,updated,rfl⟩ := exists_of_bind_pure updates
  obtain ⟨_,attempts,rfl⟩ := exists_of_bind_pure updated
  obtain ⟨_,looped,rfl⟩ := RetryPolicy.exists_of_attempt attempts
  obtain ⟨attempts,positive,allowed,attempted,retries⟩ :=
    exists_attempts (Optimistic.plain_debit id amount) answered looped
  refine ⟨attempts,positive,allowed,attempted,?_⟩
  generalize RetryPolicy.told _ = told at retries ⊢
  cases told <;> exact retries

section Result

variable {s : Ledger} {programs : List (Program (WorkerResult Nat))} {moves : List Move} {i : Nat}
  {result : WorkerResult Nat}

theorem exists_attempts_of_result (named : programs[i]? = some (optimisticWorker id amount retry))
    (ended : ((start s programs).play moves).result? i = some result) :
    ∃ attempts, 0 < attempts ∧ attempts ≤ max retry.maxAttempts 1 ∧
      (calls s programs moves i).countP Made.isAttempt ≤ attempts ∧
      (Ledger.retryPolicy "optimistic_update" retry).Attempted (Optimistic.debit id amount : Procedure Unit Update)
        (calls s programs moves i) attempts ∧
      retriesOf result = if result.tells then attempts - 1 else 0 := by
  obtain ⟨made,answered⟩ := makes_calls named ended
  obtain ⟨attempts,positive,allowed,attempted,retries⟩ := exists_attempts_of_worker made answered
  have only : (Optimistic.debit id amount : Procedure Unit Update).Only Call.ofStore :=
    Optimistic.only_update _ fun _ => only_ofOutcome _
  exact ⟨attempts,positive,allowed,attempted.countP_le only,attempted,retries⟩

theorem retriesOf_lt (named : programs[i]? = some (optimisticWorker id amount retry))
    (ended : ((start s programs).play moves).result? i = some result) :
    retriesOf result < max retry.maxAttempts 1 := by
  obtain ⟨attempts,positive,allowed,_,_,retries⟩ := exists_attempts_of_result named ended
  have fewer : retriesOf result ≤ attempts - 1 := by
    rw [retries]
    split
    · exact Nat.le_refl _
    · exact Nat.zero_le _
  omega

end Result

theorem conflictsOf_le (result : WorkerResult Nat) : conflictsOf result ≤ retriesOf result + 1 := by
  cases result with
  | ok attempts => exact Nat.le_succ _
  | error e =>
    dsimp only [conflictsOf,retriesOf]
    split <;> omega

theorem sumOver_le {f : α → Nat} {xs : List α} {bound : Nat} (each : ∀ x ∈ xs, f x ≤ bound) :
    sumOver f xs ≤ xs.length * bound := by
  induction xs with
  | nil => exact Nat.zero_le _
  | cons x xs ih =>
    obtain ⟨first,rest⟩ := List.forall_mem_cons.mp each
    rw [List.length_cons,Nat.succ_mul,Nat.add_comm]
    exact Nat.add_le_add first (ih rest)

theorem sumOver_append (f : α → Nat) (xs ys : List α) : sumOver f (xs ++ ys) = sumOver f xs + sumOver f ys := by
  induction xs with
  | nil => exact (Nat.zero_add _).symm
  | cons x xs ih => exact (congrArg (f x + ·) ih).trans (Nat.add_assoc _ _ _).symm

theorem sumOver_replicate (f : α → Nat) (n : Nat) (x : α) : sumOver f (List.replicate n x) = n * f x := by
  induction n with
  | zero => exact (Nat.zero_mul _).symm
  | succ n ih =>
    rw [List.replicate_succ,Nat.succ_mul,Nat.add_comm]
    exact congrArg (f x + ·) ih

end Scenario

end VersionedLedger

import Mathlib.Algebra.Order.BigOperators.Group.Finset
import VersionedLedger.Proofs.Scenario.Contention

/-! The retries that are reported of workers that debit one record: the sum of what the workers tell of their
attempts. -/
namespace VersionedLedger

open Pool

variable {α : Type}

namespace Scenario

open ContentionReport

theorem sumOver_results {p : Pool α} {count : Nat} {f : α → Nat} {g : Nat → Nat} (finished : p.Finished count)
    (each : ∀ i < count, ∀ a, p.result? i = some a → f a = g i) :
    sumOver f (p.results count) = ∑ i ∈ Finset.range count, g i := by
  induction count with
  | zero => rfl
  | succ count ih =>
    obtain ⟨a,ended⟩ := finished count (Nat.lt_succ_self count)
    have last : sumOver f (p.result? count).toList = g count := by
      rw [ended]
      exact (Nat.add_zero _).trans (each count (Nat.lt_succ_self count) a ended)
    rw [results_succ,sumOver_append,Finset.sum_range_succ,last,
      ih (fun i below => finished i (Nat.lt_succ_of_lt below)) fun i below => each i (Nat.lt_succ_of_lt below)]

variable {s : Ledger} {initial : Record} {amount : Amount} {operations : Nat}

theorem retries_of_report {p : Pool (WorkerResult Nat)} {report : ContentionReport}
    (fits : Fits (p.results operations)) (made : optimisticReport s initial amount operations p = .ok report) :
    report.retries = sumOver retriesOf (p.results operations) := by
  unfold optimisticReport ContentionReport.create at made
  cases read : inspectStore p.ledger (Optimistic.read initial.id) with
  | error e =>
    rw [read] at made
    cases made
  | ok final =>
    rw [read] at made
    dsimp only [bind,Except.bind] at made
    rw [sumWord_eq,sumWord_eq,if_pos fits.1,if_pos fits.2] at made
    dsimp only at made
    split at made
    · cases made
    · cases made
      rfl

/-- Workers debit a record and nobody else writes it. If there is a report, then of the attempts that each of them has
made it has the retries of those workers that succeeded or used all their attempts up, and of no others: so it has all of
them exactly if the others ended at their first attempt. There is one unless the sums of what is told leave their
words. -/
theorem contention_retries (here : s.store.view initial.id = some initial) (amount : Amount) (retry : RetryConfig)
    {others : List (Program (WorkerResult Nat))} (spared : ∀ q ∈ others, q.Spares initial.id) (moves : List Move)
    (finished : ((start s (List.replicate operations (optimisticWorker initial.id amount retry) ++ others)).play
      moves).Finished operations) :
    let programs := List.replicate operations (optimisticWorker initial.id amount retry) ++ others
    let p := (start s programs).play moves
    ∃ attempts : Nat → Nat,
      (∀ i < operations, 0 < attempts i ∧ (calls s programs moves i).countP Made.isAttempt ≤ attempts i ∧
        (Ledger.retryPolicy "optimistic_update" retry).Attempted
          (Optimistic.debit initial.id amount : Procedure Unit Update) (calls s programs moves i) (attempts i)) ∧
      (Fits (p.results operations) → ∃ report, optimisticReport s initial amount operations p = .ok report ∧
        report.retries = (∑ i ∈ Finset.range operations,
          if (p.result? i).any WorkerResult.tells then attempts i - 1 else 0) ∧
        (report.retries = ∑ i ∈ Finset.range operations, (attempts i - 1) ↔
          ∀ i < operations, (p.result? i).any WorkerResult.tells = false → attempts i = 1)) ∧
      (¬ Fits (p.results operations) → optimisticReport s initial amount operations p = .error (.crash .sumOverflow)) ∧
      (operations * max retry.maxAttempts 1 < UInt32.size → Fits (p.results operations)) ∧
      (others = [] → (start s programs).finish = p →
        (optimisticContention initial.id amount operations retry s).1 = optimisticReport s initial amount operations p) := by
  intro programs p
  have each (i : Nat) (below : i < operations) : ∃ attempts, 0 < attempts ∧
      (calls s programs moves i).countP Made.isAttempt ≤ attempts ∧
      (Ledger.retryPolicy "optimistic_update" retry).Attempted
        (Optimistic.debit initial.id amount : Procedure Unit Update) (calls s programs moves i) attempts ∧
      ∀ a, p.result? i = some a → retriesOf a = if (p.result? i).any WorkerResult.tells then attempts - 1 else 0 := by
    obtain ⟨a,ended⟩ := finished i below
    obtain ⟨attempts,positive,_,reported,attempted,retries⟩ :=
      exists_attempts_of_result (getElem?_replicate_append below) ended
    refine ⟨attempts,positive,reported,attempted,fun b again => ?_⟩
    cases ended.symm.trans again
    rw [again]
    exact retries
  choose! attempts counted using each
  have answers := (optimistic_answers here amount operations retry spared).1 moves finished
  refine ⟨attempts,fun i below => ⟨(counted i below).1,(counted i below).2.1,(counted i below).2.2.1⟩,fun fits => ?_,
    answers.crashed,answers.few,?_⟩
  · obtain ⟨report,made,_⟩ := answers.made fits
    have retries : report.retries = ∑ i ∈ Finset.range operations,
        if (p.result? i).any WorkerResult.tells then attempts i - 1 else 0 :=
      (retries_of_report fits made).trans (sumOver_results finished fun i below => (counted i below).2.2.2)
    have fewer : ∀ i ∈ Finset.range operations,
        (if (p.result? i).any WorkerResult.tells then attempts i - 1 else 0) ≤ attempts i - 1 := by
      intro i _
      split
      · exact Nat.le_refl _
      · exact Nat.zero_le _
    refine ⟨report,made,retries,?_⟩
    rw [retries,Finset.sum_eq_sum_iff_of_le fewer]
    refine ⟨fun same i below untold => ?_,fun first i member => ?_⟩
    · have none := same i (Finset.mem_range.mpr below)
      rw [untold,if_neg Bool.false_ne_true] at none
      have positive := (counted i below).1
      omega
    · split
      · rfl
      · next untold =>
        rw [first i (Finset.mem_range.mp member) (Bool.eq_false_iff.mpr untold)]
  · rintro rfl same
    have same : (start s (_ ++ [])).finish = (start s (_ ++ [])).play moves := same
    rw [List.append_nil] at same
    change _ = optimisticReport s initial amount operations ((start s (_ ++ [])).play moves)
    rw [List.append_nil,optimisticContention_eq here,same]

/-- The first worker loses a race, and finds too little left on its second attempt: the report has no retry. -/
theorem contention_retries_oneRecord :
    let programs := List.replicate 2 (optimisticWorker 1 60 {}) ++ [bystander 1 (.ok 0)]
    ∃ (attempts : Nat → Nat) (report : ContentionReport),
      optimisticReport oneRecord ⟨1, 100, 0⟩ 60 2 ((start oneRecord programs).play crossingMoves) = .ok report ∧
      (Ledger.retryPolicy "optimistic_update" {}).Attempted (Optimistic.debit 1 60 : Procedure Unit Update)
        (calls oneRecord programs crossingMoves 0) (attempts 0) ∧
      2 ≤ attempts 0 ∧ report.retries ≠ ∑ i ∈ Finset.range 2, (attempts i - 1) := by
  intro programs
  have here : oneRecord.store.view (Record.id ⟨1, 100, 0⟩) = some ⟨1, 100, 0⟩ := by decide +kernel
  have finished : ((start oneRecord programs).play crossingMoves).Finished 2 :=
    finished_two (a := .error (.validation "insufficient funds: balance=40, debit=60")) (b := .ok 1)
      (by decide +kernel) (by decide +kernel)
  obtain ⟨attempts,each,fitting,_,few,_⟩ := contention_retries here 60 {}
    (List.forall_mem_singleton.mpr (spares_bystander 1 _)) crossingMoves finished
  obtain ⟨report,made,_,all⟩ := fitting (few (by decide))
  have reported : (calls oneRecord programs crossingMoves 0).countP Made.isAttempt = 2 := by decide +kernel
  have twice : 2 ≤ attempts 0 := reported ▸ (each 0 (by decide)).2.1
  refine ⟨attempts,report,made,(each 0 (by decide)).2.2,twice,fun same => ?_⟩
  have once := all.mp same 0 (by decide) (by decide +kernel)
  omega

end Scenario

end VersionedLedger

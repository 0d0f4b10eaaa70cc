import VersionedLedger.Proofs.Pool.Fair
import VersionedLedger.Proofs.Scenario.Attempts
import VersionedLedger.Proofs.Scenario.Debits

/-! Reports on workers that debit one record side by side. In every schedule in which nobody else writes the record,
the successes that are counted are the debits that it shows; so the balance is right, and no step of the reckoning
leaves its word, but for the sums of the attempts if there are too many of these. -/
namespace VersionedLedger

variable {α : Type}

namespace Pool

theorem getElem?_replicate_append {n i : Nat} {x : α} {xs : List α} (below : i < n) :
    (List.replicate n x ++ xs)[i]? = some x := by
  rw [List.getElem?_append_left (by simpa using below),List.getElem?_replicate_of_lt below]

variable {p : Pool α} {count : Nat}

def results (p : Pool α) (count : Nat) : List α := (p.workers.take count).filterMap Worker.result?

theorem results_succ (p : Pool α) (count : Nat) :
    p.results (count + 1) = p.results count ++ (p.result? count).toList := by
  unfold results result?
  rw [List.take_add_one,List.filterMap_append]
  cases p.workers[count]? with
  | none => rfl
  | some w => cases w <;> rfl

theorem length_results_le (p : Pool α) (count : Nat) : (p.results count).length ≤ count :=
  (List.length_filterMap_le _ _).trans (List.length_take_le _ _)

theorem mem_results {p : Pool α} {a : α} (member : a ∈ p.results count) : ∃ i < count, p.result? i = some a := by
  induction count with
  | zero => cases member
  | succ count ih =>
    rw [results_succ,List.mem_append,Option.mem_toList] at member
    rcases member with before | last
    · obtain ⟨i,below,ended⟩ := ih before
      exact ⟨i,Nat.lt_succ_of_lt below,ended⟩
    · exact ⟨count,Nat.lt_succ_self count,last⟩

theorem length_results {p : Pool α} (finished : p.Finished count) : (p.results count).length = count := by
  induction count with
  | zero => rfl
  | succ count ih =>
    obtain ⟨a,ended⟩ := finished count (Nat.lt_succ_self count)
    rw [results_succ,List.length_append,ih fun i below => finished i (Nat.lt_succ_of_lt below),ended]
    rfl

theorem results_finish (p : Pool α) :
    p.finish.results p.workers.length = p.finish.workers.filterMap Worker.result? := by
  obtain ⟨moves,driven⟩ := exists_play_of_drive (fun p : Pool α => p.promptMove? <|> p.pause?) moveLimit p
  have length : p.finish.workers.length = p.workers.length := by
    rw [finish,driven,length_workers_play]
  rw [results,← length,List.take_length]

theorem countP_results {p : Pool (WorkerResult α)} {g : Nat → Nat} (finished : p.Finished count)
    (counts : ∀ i < count, ∀ a, p.result? i = some a → Counts a (g i)) :
    (p.results count).countP Except.isOk = ∑ i ∈ Finset.range count, g i := by
  induction count with
  | zero => rfl
  | succ count ih =>
    obtain ⟨a,ended⟩ := finished count (Nat.lt_succ_self count)
    have last : (p.result? count).toList.countP Except.isOk = g count := by
      rw [ended,counts count (Nat.lt_succ_self count) a ended]
      exact List.countP_singleton
    rw [results_succ,List.countP_append,Finset.sum_range_succ,last,
      ih (fun i below => finished i (Nat.lt_succ_of_lt below)) fun i below => counts i (Nat.lt_succ_of_lt below)]

end Pool

theorem Rule.sparing_monotone (id : RecordId) : (Rule.sparing id).Monotone :=
  fun _ _ _ _ implies obeys => ⟨obeys.1,fun answer => implies _ _ (obeys.2 answer)⟩

theorem Program.Spares.obeys {q : Program α} {id : RecordId} (spares : q.Spares id) {goal : α → Nat → Prop}
    (free : ∀ a n, goal a n) (n : Nat) : q.Obeys (Rule.sparing id) goal n := by
  have keeps : (Rule.sparing id).Keeps (Call.spares id) fun _ => True :=
    fun _ allowed _ n _ replied => ⟨allowed,fun answer => replied answer n trivial⟩
  exact (Program.Obeys.of_only keeps spares trivial).mono (Rule.sparing_monotone id) fun a n _ => free a n

open Pool Procedure

variable {s : Ledger} {r : Record} {amount : Amount} {operations : Nat} {worker : Program (WorkerResult α)}
  {others : List (Program (WorkerResult α))}

/-- When workers that debit a record have come to their ends, it has been debited as often as they say. -/
theorem Pool.debited_of_finished (here : s.store.view r.id = some r)
    (debits : worker.Obeys (Rule.debits r amount) Counts 0) (spared : ∀ q ∈ others, q.Spares r.id) (moves : List Move)
    (finished : ((start s (List.replicate operations worker ++ others)).play moves).Finished operations) :
    ∃ r', ((start s (List.replicate operations worker ++ others)).play moves).ledger.store.view r.id = some r' ∧
      r.Debited amount ((((start s (List.replicate operations worker ++ others)).play moves).results operations).countP
        Except.isOk) r' := by
  let goal (i : Nat) (a : WorkerResult α) (n : Nat) : Prop := i < operations → Counts a n
  have begins : (start s (List.replicate operations worker ++ others)).Keeps (debitPact r amount operations) goal
      fun _ => 0 := by
    refine keeps_start ⟨r,here,?_⟩ fun i q named => ?_
    · rw [Finset.sum_const_zero]
      exact r.debited_zero amount
    · by_cases inside : i < operations
      · rw [getElem?_replicate_append inside] at named
        cases named
        rw [debitPact_rule_of_lt inside]
        exact debits.mono Rule.debits_monotone fun a n counts _ => counts
      · rw [List.getElem?_append_right (by simpa using inside)] at named
        rw [debitPact_rule_of_not_lt inside]
        exact (spared q (List.mem_of_getElem? named)).obeys (fun _ _ below => absurd below inside) 0
  obtain ⟨g,keeps⟩ := begins.play moves
  obtain ⟨r',there,debited⟩ := keeps.holds
  refine ⟨r',there,?_⟩
  rwa [countP_results finished fun i below a ended => keeps.result ended below]

namespace Record.Debited

variable {r' : Record} {n : Nat}

theorem lt_size (debited : r.Debited amount n r') : n < 2 ^ 63 := by
  have most := Int64.toInt_lt r.balance
  rcases debited.le with rfl | ⟨positive,covered⟩
  · decide
  · have each := Int.mul_le_mul_of_nonneg_right (Int.add_one_le_of_lt positive) (Int.natCast_nonneg n)
    omega

theorem exists_taken (debited : r.Debited amount n r') : ∃ taken : Amount, taken.toInt = amount.toInt * n := by
  rcases debited.le with rfl | ⟨positive,covered⟩
  · exact ⟨0,by simp⟩
  · have most := Int64.toInt_lt r.balance
    have least : 0 ≤ amount.toInt * n := Int.mul_nonneg (Int.le_of_lt positive) (Int.natCast_nonneg n)
    exact ⟨Int64.ofInt (amount.toInt * n),Int64.toInt_ofInt_of_le (by omega) (by omega)⟩

theorem balanceAfter_eq (debited : r.Debited amount n r') : balanceAfter r.balance amount n = .ok r'.balance := by
  obtain ⟨taken,product⟩ := debited.exists_taken
  have times : (Int64.ofNat n).toInt = n := Int64.toInt_ofNat_of_lt debited.lt_size
  have word (a : Amount) : Amount.ofInt? a.toInt = some a := by
    rw [Amount.ofInt?,if_pos ⟨Int64.minValue_le_toInt a,Int64.toInt_le a⟩,Int64.ofInt_toInt]
  unfold balanceAfter Amount.mul? Amount.sub?
  rw [times,← product,word]
  change Outcome.ofChecked .differenceOverflow (Amount.ofInt? (r.balance.toInt - taken.toInt)) = _
  rw [product,← debited.balance,word]
  rfl

end Record.Debited

/-- The counts are those of all operations, and the successes are those of the workers. The balance is said to be right
and it is: the record has been debited once for every success. It is reckoned without overflow. -/
structure Accounts (initial : Record) (amount : Amount) (operations : Nat) (p : Pool (WorkerResult α))
    (successes failures : Nat) (correct : Bool) : Prop where
  balance : correct = true
  all : successes + failures = operations
  counted : successes = (p.results operations).countP Except.isOk
  stored : ∃ final, p.ledger.store.view initial.id = some final ∧ initial.Debited amount successes final
  taken : ∃ taken : Amount, taken.toInt = amount.toInt * successes
  left : ∃ left : Amount, left.toInt = initial.balance.toInt - amount.toInt * successes

def ContentionReport.Right (initial : Record) (amount : Amount) (operations : Nat) (p : Pool (WorkerResult α))
    (report : ContentionReport) : Prop :=
  Accounts initial amount operations p report.successes report.failures report.balanceCorrect

namespace ContentionReport

/-- The sums of the attempts fit in their words. -/
def Fits (results : List (WorkerResult Nat)) : Prop :=
  sumOver retriesOf results < UInt32.size ∧ sumOver conflictsOf results < UInt32.size

/-- The successes are accounted for whatever is answered. The report is made and right if the sums of the attempts fit in
their words, as they do if few enough attempts are allowed, and else the reckoning crashes. -/
structure Answers (initial : Record) (amount : Amount) (operations : Nat) (retry : RetryConfig)
    (p : Pool (WorkerResult Nat)) (answer : Outcome ContentionReport) : Prop where
  accounts : ∃ successes failures, Accounts initial amount operations p successes failures true
  made : Fits (p.results operations) → ∃ report, answer = .ok report ∧ report.Right initial amount operations p
  crashed : ¬ Fits (p.results operations) → answer = .error (.crash .sumOverflow)
  few : operations * max retry.maxAttempts 1 < UInt32.size → Fits (p.results operations)

end ContentionReport

def LockContentionReport.Right (initial : Record) (amount : Amount) (operations : Nat) (p : Pool (WorkerResult α))
    (report : LockContentionReport) : Prop :=
  Accounts initial amount operations p report.successes report.failures report.balanceCorrect

namespace Scenario

variable {initial final : Record}

theorem accounts_of_debited {p : Pool (WorkerResult α)} (there : p.ledger.store.view initial.id = some final)
    (debited : initial.Debited amount ((p.results operations).countP Except.isOk) final) :
    Accounts initial amount operations p ((p.results operations).countP Except.isOk)
      (operations - (p.results operations).countP Except.isOk) true where
  balance := rfl
  all := Nat.add_sub_of_le (List.countP_le_length.trans (p.length_results_le operations))
  counted := rfl
  stored := ⟨final,there,debited⟩
  taken := debited.exists_taken
  left := ⟨final.balance,debited.balance⟩

theorem run_read (s : Ledger) (id : RecordId) : s.run ((Optimistic.read id : Procedure Unit Record).start ()) =
    ((match s.store.view id with
      | some r => .ok r
      | none => .error (.error (.notFound id)), ()), s) := by
  have looked : s.run ((perform (.lookup id) : Procedure Unit (Option Record)).start ()) =
      (((.ok (s.store.view id) : Outcome (Option Record)), ()), s) := rfl
  unfold Ledger.run at looked ⊢
  rw [Optimistic.read,start_bind,Program.runWith_bind,looked]
  cases s.store.view id <;> rfl

theorem inspectStore_read {s : Ledger} (here : s.store.view initial.id = some final) :
    inspectStore s (Optimistic.read initial.id) = .ok final := by
  unfold inspectStore
  rw [run_read,here]

def optimisticReport (s : Ledger) (initial : Record) (amount : Amount) (operations : Nat)
    (p : Pool (WorkerResult Nat)) : Outcome ContentionReport := do
  let final ← inspectStore p.ledger (Optimistic.read initial.id)
  ContentionReport.create operations amount (p.results operations) initial final (p.ledger.clock - s.clock)

def lockReport (s : Ledger) (initial : Record) (amount : Amount) (operations : Nat)
    (p : Pool (WorkerResult Duration)) : Outcome LockContentionReport := do
  let final ← inspectStore p.ledger (Optimistic.read initial.id)
  LockContentionReport.create operations amount (p.results operations) initial final (p.ledger.clock - s.clock)

theorem create_right {p : Pool (WorkerResult Nat)} (there : p.ledger.store.view initial.id = some final)
    (debited : initial.Debited amount ((p.results operations).countP Except.isOk) final)
    (fits : ContentionReport.Fits (p.results operations)) (elapsed : Duration) :
    ∃ report, ContentionReport.create operations amount (p.results operations) initial final elapsed = .ok report ∧
      report.Right initial amount operations p := by
  unfold ContentionReport.create
  dsimp only
  rw [sumWord_eq,sumWord_eq,if_pos fits.1,if_pos fits.2,debited.balanceAfter_eq]
  refine ⟨_,rfl,{ accounts_of_debited there debited with balance := ?_ }⟩
  simp [debited.version]

theorem create_crashed {results : List (WorkerResult Nat)} (overflows : ¬ ContentionReport.Fits results)
    (elapsed : Duration) :
    ContentionReport.create operations amount results initial final elapsed = .error (.crash .sumOverflow) := by
  unfold ContentionReport.create
  dsimp only
  rw [sumWord_eq,sumWord_eq]
  by_cases retries : sumOver ContentionReport.retriesOf results < UInt32.size
  · have conflicts : ¬ sumOver ContentionReport.conflictsOf results < UInt32.size := fun fits => overflows ⟨retries,fits⟩
    rw [if_pos retries,if_neg conflicts]
    rfl
  · rw [if_neg retries]
    rfl

theorem fits_of_few {retry : RetryConfig} {others : List (Program (WorkerResult Nat))} {id : RecordId} (moves : List Move)
    (few : operations * max retry.maxAttempts 1 < UInt32.size) :
    ContentionReport.Fits (((start s (List.replicate operations (optimisticWorker id amount retry) ++ others)).play
      moves).results operations) := by
  generalize same : (start s (List.replicate operations (optimisticWorker id amount retry) ++ others)).play moves = p
  have each : ∀ result ∈ p.results operations, ContentionReport.retriesOf result < max retry.maxAttempts 1 := by
    intro result member
    obtain ⟨i,below,ended⟩ := mem_results member
    exact retriesOf_lt (getElem?_replicate_append below) (same ▸ ended)
  have within {f : WorkerResult Nat → Nat} (bounded : ∀ result ∈ p.results operations, f result ≤ max retry.maxAttempts 1) :
      sumOver f (p.results operations) < UInt32.size :=
    (sumOver_le bounded).trans_lt ((Nat.mul_le_mul_right _ (p.length_results_le operations)).trans_lt few)
  exact ⟨within fun result member => (each result member).le,
    within fun result member => (conflictsOf_le result).trans (each result member)⟩

theorem length_waits (results : List (WorkerResult Duration)) :
    (results.filterMap fun r => r.toOption.map Duration.toMillis).length = results.countP Except.isOk := by
  induction results with
  | nil => rfl
  | cons result results ih =>
    cases result with
    | error e =>
      rw [List.countP_cons_of_neg Bool.false_ne_true,← ih]
      rfl
    | ok waited =>
      rw [List.countP_cons_of_pos rfl,← ih]
      rfl

theorem lock_create_right {p : Pool (WorkerResult Duration)} (there : p.ledger.store.view initial.id = some final)
    (debited : initial.Debited amount ((p.results operations).countP Except.isOk) final) (elapsed : Duration) :
    ∃ report, LockContentionReport.create operations amount (p.results operations) initial final elapsed = .ok report ∧
      report.Right initial amount operations p := by
  have balance := debited.balanceAfter_eq
  have accounts := accounts_of_debited there debited
  unfold LockContentionReport.create
  dsimp only
  rw [← length_waits] at balance accounts
  rw [balance]
  exact ⟨_,rfl,{ accounts with balance := decide_eq_true rfl }⟩

theorem runWorkers_eq (programs : List (Program α)) (s : Ledger) : runWorkers programs s =
    ((start s programs).finish.results programs.length, (start s programs).finish.ledger) := by
  have all := (start s programs).results_finish
  rw [show (start s programs).workers.length = programs.length from List.length_map _] at all
  rw [all]
  rfl

theorem optimisticContention_eq {s : Ledger} (here : s.store.view initial.id = some initial) (retry : RetryConfig) :
    (optimisticContention initial.id amount operations retry s).1 = optimisticReport s initial amount operations
      (start s (List.replicate operations (optimisticWorker initial.id amount retry))).finish := by
  unfold optimisticContention optimisticReport
  rw [inspectStore_read here]
  dsimp only
  rw [runWorkers_eq,List.length_replicate]

theorem pessimisticContention_eq {s : Ledger} (here : s.store.view initial.id = some initial) (config : LedgerConfig)
    (hold : Duration) :
    (pessimisticContention config initial.id amount operations hold s).1 = lockReport s initial amount operations
      (start s (List.replicate operations
        (Scenario.worker (lockedDebit config.lock.locking initial.id amount hold)))).finish := by
  unfold pessimisticContention lockReport
  rw [inspectStore_read here]
  dsimp only
  rw [runWorkers_eq,List.length_replicate]

theorem optimistic_answers {s : Ledger} (here : s.store.view initial.id = some initial) (amount : Amount)
    (operations : Nat) (retry : RetryConfig) {others : List (Program (WorkerResult Nat))}
    (spared : ∀ q ∈ others, q.Spares initial.id) :
    (Pool.start s (List.replicate operations (optimisticWorker initial.id amount retry) ++ others)).Settles operations
      fun p => ContentionReport.Answers initial amount operations retry p
        (optimisticReport s initial amount operations p) := by
  refine settles_of_finished (by simp [Pool.start]) fun moves finished => ?_
  obtain ⟨final,there,debited⟩ := debited_of_finished here (debits_optimisticWorker initial amount retry) spared
    moves finished
  refine ⟨⟨_,_,accounts_of_debited there debited⟩,fun fits => ?_,fun overflows => ?_,fun few => fits_of_few moves few⟩
  · unfold optimisticReport
    rw [inspectStore_read there]
    exact create_right there debited fits _
  · unfold optimisticReport
    rw [inspectStore_read there]
    exact create_crashed overflows _

theorem locked_reported {s : Ledger} (here : s.store.view initial.id = some initial) (amount : Amount)
    (operations : Nat) (l : Locking) (hold : Duration) {others : List (Program (WorkerResult Duration))}
    (spared : ∀ q ∈ others, q.Spares initial.id) :
    (Pool.start s
      (List.replicate operations (Scenario.worker (lockedDebit l initial.id amount hold)) ++ others)).Reported operations
      (lockReport s initial amount operations) (LockContentionReport.Right initial amount operations) := by
  refine settles_of_finished (by simp [Pool.start]) fun moves finished => ?_
  obtain ⟨final,there,debited⟩ := debited_of_finished here (debits_worker (debits_lockedDebit l initial amount hold))
    spared moves finished
  unfold lockReport
  rw [inspectStore_read there]
  exact lock_create_right there debited _

/-- Workers debit a record, optimistically or under its lock, and nobody else writes it. The balance that is reported
of them is right, whatever the schedule, and every fair schedule comes to the report; only the sums of the attempts that
optimistic workers make may be too large for it. -/
theorem contention_accounts {s : Ledger} (here : s.store.view initial.id = some initial) (amount : Amount)
    (operations : Nat) :
    (∀ (retry : RetryConfig) (others : List (Program (WorkerResult Nat))), (∀ q ∈ others, q.Spares initial.id) →
      (Pool.start s (List.replicate operations (optimisticWorker initial.id amount retry) ++ others)).Settles operations
        fun p => ContentionReport.Answers initial amount operations retry p
          (optimisticReport s initial amount operations p)) ∧
    (∀ (config : LedgerConfig) (hold : Duration) (others : List (Program (WorkerResult Duration))),
      (∀ q ∈ others, q.Spares initial.id) →
      (Pool.start s (List.replicate operations
          (Scenario.worker (lockedDebit config.lock.locking initial.id amount hold)) ++ others)).Reported operations
        (lockReport s initial amount operations) (LockContentionReport.Right initial amount operations)) ∧
    (∀ retry : RetryConfig,
      let p := (Pool.start s (List.replicate operations (optimisticWorker initial.id amount retry))).finish
      p.Finished operations → ContentionReport.Answers initial amount operations retry p
        (optimisticContention initial.id amount operations retry s).1) ∧
    (∀ (config : LedgerConfig) (hold : Duration),
      let p := (Pool.start s (List.replicate operations
        (Scenario.worker (lockedDebit config.lock.locking initial.id amount hold)))).finish
      p.Finished operations → ∃ report, (pessimisticContention config initial.id amount operations hold s).1 =
        .ok report ∧ report.Right initial amount operations p) := by
  refine ⟨fun retry others spared => optimistic_answers here amount operations retry spared,
    fun config hold others spared => locked_reported here amount operations config.lock.locking hold spared,
    fun retry finished => ?_,fun config hold finished => ?_⟩
  · have answers := optimistic_answers here amount operations retry (List.forall_mem_nil _)
    rw [List.append_nil] at answers
    rw [optimisticContention_eq here]
    exact answers.finish finished
  · have reported := locked_reported here amount operations config.lock.locking hold (List.forall_mem_nil _)
    rw [List.append_nil] at reported
    rw [pessimisticContention_eq here]
    exact reported.finish finished

def bystander (id : RecordId) (a : α) : Program α :=
  .call .begin fun owner => .call (.acquire owner id none false) fun _ => .call (.sleep 50 false) fun _ =>
    .call (.release owner id) fun _ => .done a

theorem spares_bystander (id : RecordId) {x : RecordId} (a : α) : (bystander id a).Spares x :=
  ⟨rfl,fun _ => ⟨rfl,fun _ => ⟨rfl,fun _ => ⟨rfl,fun _ => trivial⟩⟩⟩⟩

def oneRecord : Ledger := { store := .seeded [(1, 100)] }

/-- The first worker reads, the second debits, and the first one finds that out. -/
def crossingMoves : List Move :=
  List.replicate 3 (.step 0) ++ List.replicate 20 (.step 1) ++ List.replicate 20 (.step 0) ++ .elapse 1000000000 ::
    List.replicate 20 (.step 0) ++ List.replicate 20 (.step 1)

theorem finished_two {p : Pool α} {a b : α} (first : p.result? 0 = some a) (second : p.result? 1 = some b) :
    p.Finished 2 := by
  intro i below
  obtain rfl | rfl : i = 0 ∨ i = 1 := by omega
  · exact ⟨a,first⟩
  · exact ⟨b,second⟩

theorem contention_accounts_oneRecord :
    let debits := List.replicate 2 (optimisticWorker 1 60 {})
    let lockedDebits := List.replicate 2 (Scenario.worker (lockedDebit ({} : LedgerConfig).lock.locking 1 60 50))
    let p := Pool.start oneRecord (debits ++ [bystander 1 (.ok 0)])
    let q := Pool.start oneRecord (lockedDebits ++ [bystander 1 (.ok 0)])
    (∃ report, optimisticReport oneRecord ⟨1, 100, 0⟩ 60 2 (p.play crossingMoves) = .ok report ∧
      report.Right ⟨1, 100, 0⟩ 60 2 (p.play crossingMoves)) ∧
    (∃ report, lockReport oneRecord ⟨1, 100, 0⟩ 60 2 (q.play crossingMoves) = .ok report ∧
      report.Right ⟨1, 100, 0⟩ 60 2 (q.play crossingMoves)) ∧
    (∃ n, ∀ m ≥ n, ∃ report, lockReport oneRecord ⟨1, 100, 0⟩ 60 2 (q.along (inTurn 3) m) = .ok report ∧
      report.Right ⟨1, 100, 0⟩ 60 2 (q.along (inTurn 3) m)) ∧
    (∃ report, (optimisticContention 1 60 2 {} oneRecord).1 = .ok report ∧
      report.Right ⟨1, 100, 0⟩ 60 2 (Pool.start oneRecord debits).finish) ∧
    ∃ report, (pessimisticContention {} 1 60 2 50 oneRecord).1 = .ok report ∧
      report.Right ⟨1, 100, 0⟩ 60 2 (Pool.start oneRecord lockedDebits).finish := by
  have here : oneRecord.store.view (Record.id ⟨1, 100, 0⟩) = some ⟨1, 100, 0⟩ := by decide +kernel
  obtain ⟨optimistic,locked,alone,alone_locked⟩ := contention_accounts here 60 2
  obtain ⟨ended,_⟩ := optimistic {} [bystander 1 (.ok 0)]
    (List.forall_mem_singleton.mpr (spares_bystander 1 _))
  obtain ⟨ended_locked,fair⟩ := locked {} 50 [bystander 1 (.ok 0)]
    (List.forall_mem_singleton.mpr (spares_bystander 1 _))
  let short : Error := .validation "insufficient funds: balance=40, debit=60"
  have few : 2 * max ({} : RetryConfig).maxAttempts 1 < UInt32.size := by decide
  have reported {p : Pool (WorkerResult Nat)} {answer : Outcome ContentionReport}
      (answers : ContentionReport.Answers ⟨1, 100, 0⟩ 60 2 {} p answer) :
      ∃ report, answer = .ok report ∧ report.Right ⟨1, 100, 0⟩ 60 2 p := answers.made (answers.few few)
  refine ⟨reported (ended crossingMoves ?_),ended_locked crossingMoves ?_,
    fair (inTurn 3) fun i below => fair_inTurn _ (Nat.lt_succ_of_lt below),reported (alone {} ?_),alone_locked {} 50 ?_⟩
  · exact finished_two (a := .error short) (b := .ok 1) (by decide +kernel) (by decide +kernel)
  · exact finished_two (a := .ok 0) (b := .error short) (by decide +kernel) (by decide +kernel)
  · exact finished_two (a := .ok 1) (b := .error short) (by decide +kernel) (by decide +kernel)
  · exact finished_two (a := .ok 0) (b := .error short) (by decide +kernel) (by decide +kernel)

end Scenario

end VersionedLedger

import VersionedLedger.Proofs.Pool.Order
import VersionedLedger.Proofs.Pool.Recorded
import VersionedLedger.Proofs.Program.Plain
import VersionedLedger.Proofs.Scenario.Contention
import VersionedLedger.Proofs.Serial.Group

/-! Reports on opposite transfers between two records. Whatever becomes of each transfer, the total that is reported
afterwards is the one from before; and locks in ascending order leave nobody to report a deadlock. Only the total
itself, and the number of workers, may be too large for a word. -/
namespace VersionedLedger

open Procedure Pool View

variable {α : Type}

theorem Error.Plain.rootCause {e : Error} (plain : e.Plain False) : e.rootCause.isDeadlock = false := by
  cases e with
  | deadlock | attemptsExhausted => exact plain.elim
  | _ => rfl

namespace Scenario

variable {config : LedgerConfig} {l : Locking} {t : Transfer} {ids : Finset RecordId}

section

variable {a b : RecordId} {amount : Amount} {rounds : Nat}

theorem length_opposite : (opposite a b amount rounds).length = rounds * 2 := by
  simp [opposite]

theorem mem_opposite (member : t ∈ opposite a b amount rounds) : t = ⟨a,b,amount⟩ ∨ t = ⟨b,a,amount⟩ := by
  obtain ⟨pair,among,inside⟩ := List.mem_flatten.mp member
  rw [(List.mem_replicate.mp among).2] at inside
  simpa using inside

theorem opposite_inside (member : t ∈ opposite a b amount rounds) :
    t.source ∈ ({a,b} : Finset RecordId) ∧ t.target ∈ ({a,b} : Finset RecordId) := by
  rcases mem_opposite member with rfl | rfl <;> simp

end

theorem transfers_worker {p : Procedure Unit α}
    (serial : ∀ V, p.Obeys (Rule.serial Transfer.Done) (fun _ _ _ => True) () ⟨V, none⟩) (confined : p.Confined ids) :
    (worker p).Transfers ids :=
  fun V => (obeys_worker.mpr (serial V)).confining Rule.serial_monotone (obeys_worker.mpr (confined ()))

theorem transfers_coordinated (c : DeadlockCoordinator) (source : t.source ∈ ids) (target : t.target ∈ ids) :
    (worker do let _ ← c.transfer t).Transfers ids := by
  refine transfers_worker (fun V => ?_) ((t.confined_coordinated source target c).bind fun _ => confined_ofOutcome _)
  refine (obeys_bind _ _ _).mpr ((c.serial_transfer t (fun V receipt V' moves => ⟨t,receipt,rfl,moves⟩) () V).mono
    Rule.serial_monotone fun answer _ _ _ => ?_)
  cases answer <;> trivial

theorem transfers_ordered (source : t.source ∈ ids) (target : t.target ∈ ids) :
    (worker (orderedTransfer config l t)).Transfers ids := by
  refine transfers_worker (fun V => ?_) ?_
  · refine (obeys_bind _ _ _).mpr (((Ledger.retryPolicy "ordered_transfer" config.retry).serial_run (o := {}) rfl
      (fun s V => t.serial_ordered l (fun V receipt V' moves => ⟨t,receipt,rfl,moves⟩) s V) () V).mono
      Rule.serial_monotone fun answer _ _ _ => ?_)
    rcases answer with _ | _ | _ <;> trivial
  · refine ((Ledger.retryPolicy "ordered_transfer" config.retry).confined_run rfl
      (t.confined_ordered source target l)).bind fun result => ?_
    cases result <;> exact confined_ofOutcome _

theorem orderly_worker {p : Procedure Unit α} (orderly : p.Orderly) : (worker p).Orderly :=
  Program.Orderly.bind (orderly ()) fun _ => .done _

theorem orderly_orderedTransfer : (orderedTransfer config l t).Orderly := by
  refine (orderly_run _ rfl (orderly_ordered l t)).bind fun result => ?_
  cases result <;> exact fun _ => .done _

theorem calm_orderedTransfer {calls : List Made} {result : WorkerResult (Except Error Unit × Nat)}
    (made : (worker (orderedTransfer config l t)).Makes calls result) (answered : ∀ m ∈ calls, m.Answered False) :
    WorkerResult.isDeadlock (result.bind (·.1)) = false := by
  obtain ⟨⟨answer,_⟩,worked,rfl⟩ := Program.Makes.exists_of_map made
  rcases makes_bind_iff.mp worked with ⟨calls,given,_,rest,looped,ended,rfl⟩ | ⟨failure,looped,rfl⟩
  · cases given with
    | ok o =>
      obtain ⟨_,rfl,_⟩ := makes_pure_iff.mp ended
      rfl
    | error failure =>
      obtain ⟨_,rfl,_⟩ := makes_pure_iff.mp ended
      have plain {e : Error} (last : failure.last? = some e) : e.Plain False :=
        RetryPolicy.plain_of_last (t.plain_ordered l) rfl (fun m member => answered m (List.mem_append_left _ member))
          looped last
      change failure.toError.rootCause.isDeadlock = false
      cases failure with
      | fatal n e => exact (plain rfl).rootCause
      | exhausted n fallbackUsed e => exact (plain rfl).rootCause
      | cancelled n last => rfl
  · obtain ⟨_,_,_,loops,_⟩ := RetryPolicy.exists_marks looped
    obtain ⟨_,c,_,rfl,_⟩ := loops.summed
    rfl

theorem inspectStore_totalOf (s : Ledger) (a b : RecordId) : inspectStore s (totalOf a b) =
    match s.store.view a, s.store.view b with
    | some first, some second => Outcome.ofChecked .sumOverflow (Amount.add? first.balance second.balance)
    | some _, none => .error (.error (.notFound b))
    | none, _ => .error (.error (.notFound a)) := by
  have read (id : RecordId) := run_read s id
  unfold inspectStore
  unfold Ledger.run at read ⊢
  rw [totalOf,start_bind,Program.runWith_bind,read a]
  cases s.store.view a with
  | none => rfl
  | some first =>
    dsimp only
    rw [start_bind,Program.runWith_bind,read b]
    cases s.store.view b <;> rfl

def bidirectionalReport (s : Ledger) (a b : RecordId) (rounds : Nat) (p : Pool (WorkerResult Unit)) :
    Outcome DeadlockReport := do
  let before ← opening a b rounds s
  let total ← inspectStore p.ledger (totalOf a b)
  pure (.create (p.results (rounds * 2)) p.ledger.deadlocks.deadlocksDetected p.ledger.deadlocks.retries before total
    (p.ledger.clock - s.clock))

def orderedReport (s : Ledger) (a b : RecordId) (rounds : Nat) (p : Pool (WorkerResult (Except Error Unit × Nat))) :
    Outcome DeadlockReport := do
  let before ← opening a b rounds s
  let total ← inspectStore p.ledger (totalOf a b)
  let ends := p.results (rounds * 2)
  let results : List (WorkerResult Unit) := ends.map fun r => r.bind (·.1)
  pure (.create results (results.countP WorkerResult.isDeadlock)
    (sumOver (fun r => (r.toOption.map (·.2)).getD 0) ends) before total (p.ledger.clock - s.clock))

section

variable {s : Ledger} {a b : RecordId} {amount before : Amount} {rounds : Nat} {pause : Duration}

theorem bidirectionalTransfers_eq (opened : opening a b rounds s = .ok before) :
    (bidirectionalTransfers config a b amount rounds pause s).1 = bidirectionalReport s a b rounds
      (start { s with deadlocks := {} } (bidirectionalWorkers config a b amount rounds pause)).finish := by
  have count : (bidirectionalWorkers config a b amount rounds pause).length = rounds * 2 :=
    (List.length_map _).trans length_opposite
  unfold bidirectionalTransfers bidirectionalReport
  rw [opened]
  dsimp only
  rw [runWorkers_eq,count,inspectStore_totalOf,inspectStore_totalOf]
  rfl

theorem orderedTransfers_eq (opened : opening a b rounds s = .ok before) :
    (orderedTransfers config a b amount rounds pause s).1 = orderedReport s a b rounds
      (start s (orderedWorkers config a b amount rounds pause)).finish := by
  have count : (orderedWorkers config a b amount rounds pause).length = rounds * 2 :=
    (List.length_map _).trans length_opposite
  unfold orderedTransfers orderedReport
  rw [opened]
  dsimp only
  rw [runWorkers_eq,count]
  rfl

theorem transfers_eq_of_opening {e : Failure} (failed : opening a b rounds s = .error e) :
    bidirectionalTransfers config a b amount rounds pause s = (.error e, s) ∧
      orderedTransfers config a b amount rounds pause s = (.error e, s) := by
  unfold bidirectionalTransfers orderedTransfers
  rw [failed]
  exact ⟨rfl,rfl⟩

end

end Scenario

/-- All transfers are accounted for. The total is said to be conserved, and it is. -/
structure DeadlockReport.Conserves (first second : Record) (rounds : Nat) (p : Pool α) (report : DeadlockReport) :
    Prop where
  transfers : report.transfers = 2 * rounds
  all : report.successes + report.failures = 2 * rounds
  conserved : report.balanceConserved = true
  before : report.totalBefore.toInt = first.balance.toInt + second.balance.toInt
  after : ∃ first' second', p.ledger.store.view first.id = some first' ∧ p.ledger.store.view second.id = some second' ∧
    report.totalAfter.toInt = first'.balance.toInt + second'.balance.toInt

namespace Scenario

variable {config : LedgerConfig} {first second : Record} {amount total : Amount} {rounds : Nat} {pause : Duration}

section

variable {s : Ledger} (here : s.store.view first.id = some first) (there : s.store.view second.id = some second)

include here there

theorem opening_eq (sum : Amount.add? first.balance second.balance = some total) (few : rounds * 2 < UInt64.size) :
    opening first.id second.id rounds s = .ok total := by
  rw [opening,inspectStore_totalOf,here,there]
  dsimp only
  rw [sum]
  exact if_pos few

theorem opening_eq_sumOverflow (large : Amount.add? first.balance second.balance = none) :
    opening first.id second.id rounds s = .error (.crash .sumOverflow) := by
  rw [opening,inspectStore_totalOf,here,there]
  dsimp only
  rw [large]
  rfl

theorem opening_eq_productOverflow (sum : Amount.add? first.balance second.balance = some total)
    (many : UInt64.size ≤ rounds * 2) :
    opening first.id second.id rounds s = .error (.crash .productOverflow) := by
  rw [opening,inspectStore_totalOf,here,there]
  dsimp only
  rw [sum]
  exact if_neg (Nat.not_lt_of_le many)

theorem keyed_pair : (s.store.view.on {first.id,second.id}).Keyed := by
  intro id r found
  have inside := within_on _ _ id r found
  rw [on_of_mem inside] at found
  rcases Finset.mem_insert.mp inside with rfl | second
  · cases here.symm.trans found
    rfl
  · cases Finset.mem_singleton.mp second
    cases there.symm.trans found
    rfl

theorem exists_after_of_kept (distinct : first.id ≠ second.id) {V : View}
    (kept : Kept {first.id,second.id} (s.store.view.on {first.id,second.id}) (V.on {first.id,second.id})) :
    ∃ first' second', V first.id = some first' ∧ V second.id = some second' ∧
      first'.balance.toInt + second'.balance.toInt = first.balance.toInt + second.balance.toInt := by
  have first_in : first.id ∈ ({first.id,second.id} : Finset RecordId) := Finset.mem_insert_self _ _
  have second_in : second.id ∈ ({first.id,second.id} : Finset RecordId) :=
    Finset.mem_insert_of_mem (Finset.mem_singleton_self _)
  have here' := (on_of_mem first_in).trans here
  have there' := (on_of_mem second_in).trans there
  obtain ⟨first',found,_⟩ := kept.later _ _ here'
  obtain ⟨second',found',_⟩ := kept.later _ _ there'
  have same := kept.total
  rw [View.total,View.total,Finset.sum_pair distinct,Finset.sum_pair distinct,worth_of_some found,worth_of_some found',
    worth_of_some here',worth_of_some there'] at same
  exact ⟨first',second',(on_of_mem first_in).symm.trans found,(on_of_mem second_in).symm.trans found',same⟩

/-- The total that is formed afterwards is the one from before, so it fits as well. -/
theorem conserves_of_kept (distinct : first.id ≠ second.id)
    (sum : Amount.add? first.balance second.balance = some total) {p : Pool α} (kept : Kept {first.id,second.id}
      (s.store.view.on {first.id,second.id}) (p.ledger.store.view.on {first.id,second.id}))
    {results : List (WorkerResult Unit)} (all : results.length = rounds * 2) (deadlocks retries : Nat)
    (elapsed : Duration) : inspectStore p.ledger (totalOf first.id second.id) = .ok total ∧
      (DeadlockReport.create results deadlocks retries total total elapsed).Conserves first second rounds p := by
  obtain ⟨first',second',found,found',same⟩ := exists_after_of_kept here there distinct kept
  have still : Amount.add? first'.balance second'.balance = some total := by
    rw [← sum,Amount.add?,same]
    rfl
  have double : results.length = 2 * rounds := all.trans (Nat.mul_comm _ _)
  refine ⟨?_,double,?_,decide_eq_true rfl,Amount.toInt_of_add? sum,first',second',found,found',Amount.toInt_of_add? still⟩
  · rw [inspectStore_totalOf,found,found']
    dsimp only
    rw [still]
    rfl
  · exact (Nat.add_sub_of_le List.countP_le_length).trans double

end

variable {s : Ledger}

theorem spares_pair {others : List (Program α)} (spared : ∀ q ∈ others, q.Spares first.id ∧ q.Spares second.id) :
    ∀ q ∈ others, ∀ id ∈ ({first.id,second.id} : Finset RecordId), q.Spares id := by
  intro q member id inside
  rcases Finset.mem_insert.mp inside with rfl | other
  · exact (spared q member).1
  · exact Finset.mem_singleton.mp other ▸ (spared q member).2

variable (config amount pause) in
theorem bidirectional_reported (here : s.store.view first.id = some first) (there : s.store.view second.id = some second)
    (distinct : first.id ≠ second.id) (sum : Amount.add? first.balance second.balance = some total)
    (few : rounds * 2 < UInt64.size) {others : List (Program (WorkerResult Unit))}
    (spared : ∀ q ∈ others, q.Spares first.id ∧ q.Spares second.id) :
    (start { s with deadlocks := {} } (bidirectionalWorkers config first.id second.id amount rounds pause ++
      others)).Reported (rounds * 2) (bidirectionalReport s first.id second.id rounds)
        (DeadlockReport.Conserves first second rounds) := by
  refine settles_of_finished (by simp [Pool.start,bidirectionalWorkers,length_opposite]) fun moves finished => ?_
  have among : ∀ q ∈ bidirectionalWorkers config first.id second.id amount rounds pause,
      q.Transfers {first.id,second.id} := by
    intro q member
    obtain ⟨t,among,rfl⟩ := List.mem_map.mp member
    exact transfers_coordinated _ (opposite_inside among).1 (opposite_inside among).2
  have kept := group_kept (s := { s with deadlocks := {} }) (keyed_pair here there) among (spares_pair spared) moves
  obtain ⟨after,conserves⟩ := conserves_of_kept here there distinct sum kept (length_results finished) _ _ _
  unfold bidirectionalReport
  rw [opening_eq here there sum few,after]
  exact ⟨_,rfl,conserves⟩

theorem calm_results {a b : RecordId} (fresh : s.store.locks.table = {})
    {others : List (Program (WorkerResult (Except Error Unit × Nat)))} (orderly : ∀ q ∈ others, q.Orderly)
    (moves : List Move) : ∀ result ∈ ((start s (orderedWorkers config a b amount rounds pause ++ others)).play
      moves).results (rounds * 2), WorkerResult.isDeadlock (result.bind (·.1)) = false := by
  intro result member
  have all : ∀ q ∈ orderedWorkers config a b amount rounds pause ++ others, q.Orderly := by
    intro q member
    rcases List.mem_append.mp member with own | other
    · obtain ⟨t,_,rfl⟩ := List.mem_map.mp own
      exact orderly_worker orderly_orderedTransfer
    · exact orderly q other
  obtain ⟨i,below,ended⟩ := mem_results member
  obtain ⟨said,spoken⟩ := (spoken_start False s _).play moves (.inr (orderly_never_refused fresh all))
  obtain ⟨q,named,made⟩ := spoken.makes ended
  have inside : i < (orderedWorkers config a b amount rounds pause).length := by
    rw [orderedWorkers,List.length_map,length_opposite]
    exact below
  rw [List.getElem?_append_left inside,orderedWorkers,List.getElem?_map] at named
  obtain ⟨t,_,rfl⟩ := Option.map_eq_some_iff.mp named
  exact calm_orderedTransfer made (spoken.answered i)

variable (config amount pause) in
theorem ordered_reported (here : s.store.view first.id = some first) (there : s.store.view second.id = some second)
    (distinct : first.id ≠ second.id) (sum : Amount.add? first.balance second.balance = some total)
    (few : rounds * 2 < UInt64.size) {others : List (Program (WorkerResult (Except Error Unit × Nat)))}
    (spared : ∀ q ∈ others, q.Spares first.id ∧ q.Spares second.id) :
    (start s (orderedWorkers config first.id second.id amount rounds pause ++ others)).Reported (rounds * 2)
      (orderedReport s first.id second.id rounds) fun p report => report.Conserves first second rounds p ∧
        (s.store.locks.table = {} → (∀ q ∈ others, q.Orderly) → report.deadlocksDetected = 0) := by
  refine settles_of_finished (by simp [Pool.start,orderedWorkers,length_opposite]) fun moves finished => ?_
  have among : ∀ q ∈ orderedWorkers config first.id second.id amount rounds pause,
      q.Transfers {first.id,second.id} := by
    intro q member
    obtain ⟨t,among,rfl⟩ := List.mem_map.mp member
    exact transfers_ordered (opposite_inside among).1 (opposite_inside among).2
  have kept := group_kept (keyed_pair here there) among (spares_pair spared) moves
  obtain ⟨after,conserves⟩ := conserves_of_kept here there distinct sum kept
    ((List.length_map _).trans (length_results finished)) _ _ _
  unfold orderedReport
  rw [opening_eq here there sum few,after]
  refine ⟨_,rfl,conserves,fun fresh orderly => List.countP_eq_zero.mpr fun result member => ?_⟩
  obtain ⟨ended,inside,rfl⟩ := List.mem_map.mp member
  exact Bool.eq_false_iff.mp (calm_results fresh orderly moves ended inside)

/-- Opposite transfers between two records, in the order of the request or in ascending order, while nobody else writes
either record. If the total of the two and the number of workers fit in their words, the report is made in every
schedule, and every fair one comes to it: it accounts for all transfers, and the total is conserved. In ascending order
it tells of no deadlock, given that all others ask for locks in order as well. Otherwise the run crashes before any
transfer is made. -/
theorem opposite_conserved {s : Ledger} (here : s.store.view first.id = some first)
    (there : s.store.view second.id = some second) (distinct : first.id ≠ second.id) (config : LedgerConfig)
    (amount : Amount) (rounds : Nat) (pause : Duration) :
    let a := first.id
    let b := second.id
    let bidirectional := bidirectionalWorkers config a b amount rounds pause
    let ordered := orderedWorkers config a b amount rounds pause
    let counted := { s with deadlocks := {} }
    (∀ total, Amount.add? first.balance second.balance = some total → rounds * 2 < UInt64.size →
      (∀ others : List (Program (WorkerResult Unit)), (∀ q ∈ others, q.Spares a ∧ q.Spares b) →
        (start counted (bidirectional ++ others)).Reported (rounds * 2) (bidirectionalReport s a b rounds)
          (DeadlockReport.Conserves first second rounds)) ∧
      (∀ others : List (Program (WorkerResult (Except Error Unit × Nat))), (∀ q ∈ others, q.Spares a ∧ q.Spares b) →
        (start s (ordered ++ others)).Reported (rounds * 2) (orderedReport s a b rounds) fun p report =>
          report.Conserves first second rounds p ∧
            (s.store.locks.table = {} → (∀ q ∈ others, q.Orderly) → report.deadlocksDetected = 0)) ∧
      ((start counted bidirectional).finish.Finished (rounds * 2) →
        ∃ report, (bidirectionalTransfers config a b amount rounds pause s).1 = .ok report ∧
          report.Conserves first second rounds (start counted bidirectional).finish) ∧
      ((start s ordered).finish.Finished (rounds * 2) →
        ∃ report, (orderedTransfers config a b amount rounds pause s).1 = .ok report ∧
          report.Conserves first second rounds (start s ordered).finish ∧
          (s.store.locks.table = {} → report.deadlocksDetected = 0))) ∧
    (Amount.add? first.balance second.balance = none →
      bidirectionalTransfers config a b amount rounds pause s = (.error (.crash .sumOverflow), s) ∧
        orderedTransfers config a b amount rounds pause s = (.error (.crash .sumOverflow), s)) ∧
    (∀ total, Amount.add? first.balance second.balance = some total → UInt64.size ≤ rounds * 2 →
      bidirectionalTransfers config a b amount rounds pause s = (.error (.crash .productOverflow), s) ∧
        orderedTransfers config a b amount rounds pause s = (.error (.crash .productOverflow), s)) := by
  refine ⟨fun total sum few => ⟨fun others spared => bidirectional_reported config amount pause here there distinct sum few spared,
    fun others spared => ordered_reported config amount pause here there distinct sum few spared,fun finished => ?_,fun finished => ?_⟩,
    fun large => transfers_eq_of_opening (opening_eq_sumOverflow here there large),
    fun total sum many => transfers_eq_of_opening (opening_eq_productOverflow here there sum many)⟩
  · have reported := bidirectional_reported config amount pause here there distinct sum few (List.forall_mem_nil _)
    rw [List.append_nil] at reported
    rw [bidirectionalTransfers_eq (opening_eq here there sum few)]
    exact reported.finish finished
  · have reported := ordered_reported config amount pause here there distinct sum few (List.forall_mem_nil _)
    rw [List.append_nil] at reported
    rw [orderedTransfers_eq (opening_eq here there sum few)]
    obtain ⟨report,made,conserves,calm⟩ := reported.finish finished
    exact ⟨report,made,conserves,fun fresh => calm fresh (List.forall_mem_nil _)⟩

def twoRecords : Ledger := { store := .seeded [(1, 100),(2, 0)] }

def fullRecords : Ledger := { store := .seeded [(1, Int64.maxValue),(2, 1)] }

/-- Each of two workers takes its first lock before either asks for its second one, and the second worker rests before
it tries again. -/
def meetingMoves : List Move :=
  let steps (i n : Nat) : List Move := List.replicate n (.step i)
  [steps 0 10,steps 1 10,[.elapse 5],steps 0 10,steps 1 10,steps 0 20,[.elapse 1000000000],steps 1 10,[.elapse 5],
    steps 1 30].flatten

/-- The second worker is picked to break a cycle, and succeeds when it tries again. -/
theorem opposite_conserved_twoRecords :
    let first : Record := ⟨1, 100, 0⟩
    let second : Record := ⟨2, 0, 0⟩
    let crossing := start { twoRecords with deadlocks := {} }
      (bidirectionalWorkers {} 1 2 30 1 5 ++ [bystander 1 (.ok ())])
    let ordered := start twoRecords (orderedWorkers {} 1 2 30 1 5)
    (∃ report, bidirectionalReport twoRecords 1 2 1 (crossing.play meetingMoves) = .ok report ∧
      report.Conserves first second 1 (crossing.play meetingMoves)) ∧
    (crossing.play meetingMoves).ledger.deadlocks.deadlocksDetected = 1 ∧
    (∃ n, ∀ m ≥ n, ∃ report, orderedReport twoRecords 1 2 1 (ordered.along (inTurn 2) m) = .ok report ∧
      report.Conserves first second 1 (ordered.along (inTurn 2) m) ∧ report.deadlocksDetected = 0) ∧
    (∃ report, (bidirectionalTransfers {} 1 2 30 1 5 twoRecords).1 = .ok report ∧ report.transfers = 2) ∧
    (∃ report, (orderedTransfers {} 1 2 30 1 5 twoRecords).1 = .ok report ∧ report.transfers = 2 ∧
      report.deadlocksDetected = 0) ∧
    (bidirectionalTransfers {} 1 2 30 9223372036854775808 5 twoRecords).1 = .error (.crash .productOverflow) ∧
    (orderedTransfers {} 1 2 30 1 5 fullRecords).1 = .error (.crash .sumOverflow) := by
  intro first second crossing ordered
  have here : twoRecords.store.view first.id = some first := by decide +kernel
  have there : twoRecords.store.view second.id = some second := by decide +kernel
  have distinct : first.id ≠ second.id := by decide
  have sum : Amount.add? first.balance second.balance = some 100 := by decide +kernel
  obtain ⟨fits,_,_⟩ := opposite_conserved here there distinct {} 30 1 5
  obtain ⟨beside,in_order,alone,alone_ordered⟩ := fits 100 sum (by decide)
  obtain ⟨ended,_⟩ := beside [bystander 1 (.ok ())]
    (List.forall_mem_singleton.mpr ⟨spares_bystander 1 _,spares_bystander 1 _⟩)
  obtain ⟨_,fair⟩ := in_order [] (List.forall_mem_nil _)
  refine ⟨ended meetingMoves ?_,by decide +kernel,?_,?_,?_,?_,?_⟩
  · exact finished_two (a := .ok ()) (b := .ok ()) (by decide +kernel) (by decide +kernel)
  · obtain ⟨n,reported⟩ := fair (inTurn 2) fun i below => fair_inTurn _ below
    refine ⟨n,fun m later => ?_⟩
    obtain ⟨report,made,conserves,calm⟩ := reported m later
    exact ⟨report,made,conserves,calm rfl (List.forall_mem_nil _)⟩
  · obtain ⟨report,made,conserves⟩ := alone
      (finished_two (a := .ok ()) (b := .ok ()) (by decide +kernel) (by decide +kernel))
    exact ⟨report,made,conserves.transfers⟩
  · obtain ⟨report,made,conserves,calm⟩ := alone_ordered
      (finished_two (a := .ok (.ok (), 0)) (b := .ok (.ok (), 0)) (by decide +kernel) (by decide +kernel))
    exact ⟨report,made,conserves.transfers,calm rfl⟩
  · obtain ⟨_,_,many⟩ := opposite_conserved here there distinct {} 30 9223372036854775808 5
    exact congrArg Prod.fst (many 100 sum (by decide)).1
  · let full : Record := ⟨1, Int64.maxValue, 0⟩
    let other : Record := ⟨2, 1, 0⟩
    have full_here : fullRecords.store.view full.id = some full := by decide +kernel
    have other_here : fullRecords.store.view other.id = some other := by decide +kernel
    obtain ⟨_,large,_⟩ := opposite_conserved full_here other_here (by decide) {} 30 1 5
    exact congrArg Prod.fst (large (by decide +kernel)).2

end Scenario

end VersionedLedger

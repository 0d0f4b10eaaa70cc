import VersionedLedger.Proofs.Pool.Dialogue
import VersionedLedger.Proofs.Program.Calls
import VersionedLedger.Proofs.Program.Counted

/-! What a ledger's own totals have to do with its reports. A listener that adds up the reported loops hears of every
loop; the ledger's totals hold all of them but those of coordinated transfers, which are kept in the counts of
deadlocks. -/
namespace VersionedLedger

open Procedure Mark

variable {σ α β : Type}

attribute [ext] RetryMetrics

namespace RetryMetrics

instance : Zero RetryMetrics := ⟨{}⟩

instance : Add RetryMetrics where
  add m n := ⟨m.attempts + n.attempts,m.successes + n.successes,m.failures + n.failures,m.fallbacks + n.fallbacks⟩

variable (m n : RetryMetrics)

@[simp] theorem attempts_add : (m + n).attempts = m.attempts + n.attempts := rfl

@[simp] theorem successes_add : (m + n).successes = m.successes + n.successes := rfl

@[simp] theorem failures_add : (m + n).failures = m.failures + n.failures := rfl

@[simp] theorem fallbacks_add : (m + n).fallbacks = m.fallbacks + n.fallbacks := rfl

@[simp] theorem attempts_zero : (0 : RetryMetrics).attempts = 0 := rfl

@[simp] theorem successes_zero : (0 : RetryMetrics).successes = 0 := rfl

@[simp] theorem failures_zero : (0 : RetryMetrics).failures = 0 := rfl

@[simp] theorem fallbacks_zero : (0 : RetryMetrics).fallbacks = 0 := rfl

instance : AddCancelCommMonoid RetryMetrics where
  add_assoc l m n := by ext <;> simp [Nat.add_assoc]
  zero_add m := by ext <;> simp
  add_zero m := by ext <;> simp
  add_comm m n := by ext <;> simp [Nat.add_comm]
  add_left_cancel l m n same := by simpa [RetryMetrics.ext_iff] using same
  nsmul := nsmulRec

end RetryMetrics

def RetrySummary.entry (s : RetrySummary) : RetryMetrics := RetryMetrics.record 0 s

/-- What a count adds, as the totals of retried operations would have it. -/
def DeadlockCount.entry : DeadlockCount → RetryMetrics
  | detected => 0
  | succeeded n => ⟨n + 1,1,0,0⟩
  | failed n => ⟨n + 1,0,1,0⟩

def DeadlockStats.totals (s : DeadlockStats) : RetryMetrics where
  attempts := s.retries + s.successes + s.failures
  successes := s.successes
  failures := s.failures

def Event.entry : Event → RetryMetrics
  | .retry _ s => s.entry
  | _ => 0

namespace RetryMetrics

theorem record_eq (m : RetryMetrics) (s : RetrySummary) : m.record s = m + s.entry := by
  ext <;> simp [record,RetrySummary.entry]

theorem observe_eq (m : RetryMetrics) (e : Event) : m.observe e = m + e.entry := by
  cases e with
  | retry operation s => exact m.record_eq s
  | _ => exact (add_zero m).symm

theorem foldl_observe (m : RetryMetrics) (events : List Event) :
    events.foldl observe m = m + (events.map Event.entry).sum := by
  induction events generalizing m with
  | nil => exact (add_zero m).symm
  | cons e events ih => rw [List.foldl_cons,ih,observe_eq,List.map_cons,List.sum_cons,add_assoc]

end RetryMetrics

theorem DeadlockStats.totals_count (s : DeadlockStats) (c : DeadlockCount) :
    (s.count c).totals = s.totals + c.entry := by
  cases c <;> ext <;> simp [totals,count,DeadlockCount.entry] <;> omega

theorem Event.entry_ofCircuit {e : Event} (ofCircuit : e.ofCircuit = true) : e.entry = 0 := by
  cases e with
  | call | transition => rfl
  | _ => cases ofCircuit

namespace Ledger

/-- The totals of a listener that has been there from the start. -/
def heard (s : Ledger) : RetryMetrics := s.journal.foldl RetryMetrics.observe {}

/-- What the ledger itself has counted, of retried operations and of coordinated transfers. -/
def totals (s : Ledger) : RetryMetrics × RetryMetrics := (s.retries,s.deadlocks.totals)

variable (s : Ledger)

theorem heard_report (listening : s.listening = true) (events : List Event) :
    (s.report events).heard = s.heard + (events.map Event.entry).sum := by
  unfold heard report
  rw [if_pos listening,List.foldl_append,RetryMetrics.foldl_observe]

theorem listening_report (events : List Event) : (s.report events).listening = s.listening := by
  unfold report
  split <;> rfl

theorem heard_onBreaker {h : CircuitHandle} {act : Breaker → Time → β × Breaker × List Event}
    (listening : s.listening = true)
    (ofCircuit : ∀ e ∈ (act (s.circuits.breaker h) (s.clock + 1)).2.2, e.ofCircuit = true) :
    (s.onBreaker h act).2.listening = true ∧ (s.onBreaker h act).2.heard = s.heard := by
  have silent : ((act (s.circuits.breaker h) (s.clock + 1)).2.2.map Event.entry).sum = 0 := by
    refine List.sum_eq_zero fun m member => ?_
    obtain ⟨e,here,rfl⟩ := List.mem_map.mp member
    exact Event.entry_ofCircuit (ofCircuit e here)
  simp only [onBreaker]
  split
  · refine ⟨(listening_report _ _).trans listening,(heard_report _ ?_ _).trans ?_⟩
    · exact listening
    · exact (congrArg (s.heard + ·) silent).trans (add_zero _)
  · exact ⟨listening,rfl⟩

end Ledger

namespace Breaker

theorem ofCircuit_absorb (b : Breaker) (outcome : CallOutcome) (now : Time) :
    ∀ event ∈ (b.absorb outcome now).2, event.ofCircuit = true := by
  unfold absorb
  dsimp only
  split
  · split
    · exact ofCircuit_transition _ _ _
    · exact List.forall_mem_nil _
  · split
    · exact ofCircuit_transition _ _ _
    · split
      · exact ofCircuit_transition _ _ _
      · exact List.forall_mem_nil _
  · exact List.forall_mem_nil _

theorem ofCircuit_record (b : Breaker) (p : Permit) (failed : Bool) (now : Time) :
    ∀ event ∈ (b.record p failed now).2, event.ofCircuit = true := by
  unfold record
  dsimp only
  split
  · exact List.forall_mem_cons.mpr ⟨rfl,ofCircuit_absorb _ _ _⟩
  · exact List.forall_mem_cons.mpr ⟨rfl,List.forall_mem_nil _⟩

end Breaker

namespace Call

def heard : Call → RetryMetrics
  | report e => e.entry
  | _ => 0

def counted : Call → RetryMetrics × RetryMetrics
  | tally s => (s.entry,0)
  | countDeadlock c => (0,c.entry)
  | _ => 0

/-- Calls that neither count a finished loop nor report one. -/
def bookless : Call → Bool
  | report (.retry ..) | tally _ | countDeadlock (.succeeded _) | countDeadlock (.failed _) => false
  | _ => true

theorem heard_bookless {c : Call} (bookless : c.bookless = true) : c.heard = 0 := by
  cases c with
  | report e =>
    cases e with
    | retry => cases bookless
    | _ => rfl
  | _ => rfl

theorem counted_bookless {c : Call} (bookless : c.bookless = true) : c.counted = 0 := by
  cases c with
  | tally => cases bookless
  | countDeadlock c =>
    cases c with
    | detected => rfl
    | _ => cases bookless
  | _ => rfl

def counts : Call → Bool
  | tally _ | countDeadlock _ => true
  | _ => false

theorem bookless_ofStore {c : Call} (ofStore : c.ofStore = true) : c.bookless = true := by
  cases c <;> first | rfl | cases ofStore

end Call

theorem Ledger.same_counts (s : Ledger) {c : Call} (prompt : c.waits = false) (uncounted : c.counts = false) :
    (s.answer c).2.retries = s.retries ∧ (s.answer c).2.deadlocks = s.deadlocks := by
  cases c with
  | acquire | sleep => cases prompt
  | tally | countDeadlock => cases uncounted
  | checkFault operation =>
    obtain ⟨faults,clock,seed,same⟩ := s.exists_checkFault_eq operation
    change (s.checkFault operation).2.retries = _ ∧ (s.checkFault operation).2.deadlocks = _
    rw [same]
    exact ⟨rfl,rfl⟩
  | draw =>
    obtain ⟨n,drawn⟩ := s.exists_draw_eq
    change s.draw.2.retries = _ ∧ s.draw.2.deadlocks = _
    rw [drawn]
    exact ⟨rfl,rfl⟩
  | admitCall | recordCall =>
    simp only [Ledger.answer,Ledger.onBreaker]
    unfold Ledger.report
    split <;> (try split) <;> exact ⟨rfl,rfl⟩
  | report e =>
    change (s.report [e]).retries = _ ∧ (s.report [e]).deadlocks = _
    unfold Ledger.report
    split <;> exact ⟨rfl,rfl⟩
  | _ => exact ⟨rfl,rfl⟩

namespace Gauge

def heard : Gauge RetryMetrics where
  read := Ledger.heard
  add m := m.call.heard
  valid s := s.listening = true
  slow := by
    rintro ⟨c,_⟩ waits
    cases c <;> first | rfl | cases waits
  elapse _ listening := ⟨listening,rfl⟩
  locks _ listening := ⟨listening,rfl⟩
  answer := by
    intro s c prompt listening
    cases c with
    | acquire | sleep => cases prompt
    | checkFault operation =>
      obtain ⟨faults,clock,seed,same⟩ := s.exists_checkFault_eq operation
      change (s.checkFault operation).2.listening = true ∧ (s.checkFault operation).2.heard = _
      rw [same]
      exact ⟨listening,(add_zero _).symm⟩
    | draw =>
      obtain ⟨n,drawn⟩ := s.exists_draw_eq
      change s.draw.2.listening = true ∧ s.draw.2.heard = _
      rw [drawn]
      exact ⟨listening,(add_zero _).symm⟩
    | admitCall h =>
      obtain ⟨listening,same⟩ := s.heard_onBreaker listening ((s.circuits.breaker h).ofCircuit_tryAcquire _)
      exact ⟨listening,same.trans (add_zero _).symm⟩
    | recordCall h permit failed =>
      have events := (s.circuits.breaker h).ofCircuit_record permit failed (s.clock + 1)
      obtain ⟨listening,same⟩ : (s.onBreaker h fun b now => ((),b.record permit failed now)).2.listening = true ∧ _ :=
        s.heard_onBreaker listening events
      exact ⟨listening,same.trans (add_zero _).symm⟩
    | report e =>
      refine ⟨(s.listening_report [e]).trans listening,(s.heard_report listening [e]).trans ?_⟩
      simp [Call.heard]
    | _ => exact ⟨listening,(add_zero _).symm⟩

def counted : Gauge (RetryMetrics × RetryMetrics) where
  read := Ledger.totals
  add m := m.call.counted
  valid _ := True
  slow := by
    rintro ⟨c,_⟩ waits
    cases c <;> first | rfl | cases waits
  elapse _ _ := ⟨trivial,rfl⟩
  locks _ _ := ⟨trivial,rfl⟩
  answer := by
    intro s c prompt _
    refine ⟨trivial,?_⟩
    cases c with
    | tally summary => exact Prod.ext (s.retries.record_eq summary) (add_zero _).symm
    | countDeadlock c => exact Prod.ext (add_zero _).symm (s.deadlocks.totals_count c)
    | _ =>
      obtain ⟨retries,deadlocks⟩ := s.same_counts prompt rfl
      rw [Ledger.totals,retries,deadlocks]
      exact (add_zero _).symm

def booked : Gauge RetryMetrics := counted.map ((AddMonoidHom.id _).coprod (AddMonoidHom.id _))

def tallied : Gauge RetryMetrics := counted.map (AddMonoidHom.fst _ _)

/-- Books into which every loop is entered that is counted. -/
structure Books (δ : Gauge RetryMetrics) : Prop where
  bookless {m : Made} (bookless : m.call.bookless = true) : δ.add m = 0
  tally (s : RetrySummary) : δ.add ⟨.tally s,()⟩ = s.entry
  report (e : Event) : δ.add ⟨.report e,()⟩ = 0

theorem books_map {f : RetryMetrics × RetryMetrics →+ RetryMetrics} (enters : ∀ m, f (m,0) = m) :
    (counted.map f).Books where
  bookless bookless := (congrArg f (Call.counted_bookless bookless)).trans f.map_zero
  tally s := enters s.entry
  report _ := f.map_zero

theorem books_booked : booked.Books := books_map fun m => add_zero m

theorem books_tallied : tallied.Books := books_map fun _ => rfl

theorem booked_sum_countDeadlock (c : DeadlockCount) (r : Unit) : booked.sum [⟨.countDeadlock c,r⟩] = c.entry := by
  rw [sum_cons,sum_nil,add_zero]
  exact zero_add c.entry

variable {calls : List Made}

theorem sum_bookless {γ : Gauge RetryMetrics} (vanishes : ∀ m : Made, m.call.bookless = true → γ.add m = 0)
    (bookless : ∀ m ∈ calls, m.call.bookless = true) : γ.sum calls = 0 :=
  γ.sum_eq_zero fun m member => vanishes m (bookless m member)

end Gauge

end VersionedLedger

import VersionedLedger.Circuit.Breaker
import VersionedLedger.Proofs.Circuit.Window

/-! Everything that can be done with one breaker, and what a single act does to it. A course keeps the permits
that have been issued, so that each of them can be recorded late, again, or never. -/
namespace VersionedLedger

def CircuitWindow.Trips (config : CircuitConfig) (w : CircuitWindow) : Prop :=
  config.minimumCalls ≤ w.length ∧
    (config.failureRateThreshold ≤ w.failureRate ∨ config.slowCallRateThreshold ≤ w.slowRate)

theorem CircuitConfig.bounds_of_validate {config : CircuitConfig} (valid : config.validate = .ok ()) :
    1 ≤ config.slidingWindowSize ∧ 1 ≤ config.minimumCalls ∧ 1 ≤ config.permittedProbes := by
  unfold validate at valid
  cases first : validateRate "failure_rate_threshold" config.failureRateThreshold with
  | error e => simp [first,bind,Except.bind] at valid
  | ok =>
    cases second : validateRate "slow_call_rate_threshold" config.slowCallRateThreshold with
    | error e => simp [first,second,bind,Except.bind] at valid
    | ok =>
      simp only [first,second,bind,Except.bind,Bool.or_eq_true,decide_eq_true_eq] at valid
      by_cases empty : config.slidingWindowSize = 0 ∨ config.minimumCalls = 0
      · rw [if_pos empty] at valid
        cases valid
      · rw [if_neg empty] at valid
        by_cases short : config.slidingWindowSize < config.minimumCalls
        · rw [if_pos short] at valid
          cases valid
        · rw [if_neg short] at valid
          by_cases none : config.permittedProbes = 0
          · rw [if_pos none] at valid
            cases valid
          · omega

namespace Breaker

/-- Nothing but counters and the time of opening may differ. -/
structure Alike (b b' : Breaker) : Prop where
  config : b'.config = b.config
  state : b'.state = b.state
  generation : b'.generation = b.generation
  window : b'.window = b.window

structure Moves (b : Breaker) (target : CircuitState) (b' : Breaker) : Prop where
  config : b'.config = b.config
  state : b'.state = target
  generation : b'.generation = b.generation + 1
  window : b'.window = if target = .closed then b.window.clear else b.window

theorem transition_moves (b : Breaker) (target : CircuitState) (now : Time) :
    b.Moves target (b.transition target now).1 := ⟨rfl,rfl,rfl,rfl⟩

theorem shouldOpen_iff {b : Breaker} : b.shouldOpen = true ↔ b.window.Trips b.config := by
  simp [shouldOpen,CircuitWindow.Trips]

/-- What a request for a permit answers and leaves once the wait has been looked at. -/
inductive Admits (b : Breaker) (now : Time) : Except Error Permit → Breaker → Prop
  | closed (closed : b.state = .closed) : Admits b now (.ok (b.permit now)) b
  | probe (halfOpen : b.state = .halfOpen) (room : b.probesAdmitted < b.config.permittedProbes) :
    Admits b now (.ok (b.permit now)) { b with probesAdmitted := b.probesAdmitted + 1 }
  | full (halfOpen : b.state = .halfOpen) (taken : b.config.permittedProbes ≤ b.probesAdmitted) :
    Admits b now (.error (.circuitOpen b.name b.state)) { b with notPermitted := b.notPermitted + 1 }
  | waiting (opened : b.state = .opened) :
    Admits b now (.error (.circuitOpen b.name b.state)) { b with notPermitted := b.notPermitted + 1 }

theorem admitCall_admits (b : Breaker) (now : Time) :
    b.Admits now (b.admitCall now).1 (b.admitCall now).2.1 := by
  unfold admitCall
  dsimp only
  split
  · next closed => exact .closed closed
  · next halfOpen =>
    split
    · next room => exact .probe halfOpen room
    · next taken => exact .full halfOpen (Nat.le_of_not_lt taken)
  · next opened => exact .waiting opened

/-- An opened breaker whose wait is over becomes half open before it answers. -/
def looked (b : Breaker) (now : Time) : Breaker :=
  if b.readyToProbe now then (b.transition .halfOpen now).1 else b

theorem looked_cases (b : Breaker) (now : Time) :
    b.looked now = b ∨ b.state = .opened ∧ b.Moves .halfOpen (b.looked now) := by
  unfold looked
  split
  · next ready =>
    have opened : b.state = .opened := by simp_all [readyToProbe]
    exact .inr ⟨opened,b.transition_moves .halfOpen now⟩
  · exact .inl rfl

theorem tryAcquire_admits (b : Breaker) (now : Time) :
    (b.looked now).Admits now (b.tryAcquire now).1 (b.tryAcquire now).2.1 := by
  unfold tryAcquire looked
  split <;> exact admitCall_admits _ now

inductive Absorbs (b : Breaker) (o : CallOutcome) (now : Time) : Breaker → Prop
  | counted (closed : b.state = .closed) (calm : ¬ (b.window.record o).Trips b.config) :
    Absorbs b o now { b with window := b.window.record o }
  | tripped (closed : b.state = .closed) (trips : (b.window.record o).Trips b.config) :
    Absorbs b o now ({ b with window := b.window.record o }.transition .opened now).1
  | reopened (halfOpen : b.state = .halfOpen) (failed : o = .failure) :
    Absorbs b o now (b.transition .opened now).1
  | succeeded (halfOpen : b.state = .halfOpen) (passed : o ≠ .failure)
      (fewer : b.probesSucceeded + 1 < b.config.permittedProbes) :
    Absorbs b o now { b with probesSucceeded := b.probesSucceeded + 1 }
  | recovered (halfOpen : b.state = .halfOpen) (passed : o ≠ .failure)
      (enough : b.config.permittedProbes ≤ b.probesSucceeded + 1) :
    Absorbs b o now ({ b with probesSucceeded := b.probesSucceeded + 1 }.transition .closed now).1
  | ignored (opened : b.state = .opened) : Absorbs b o now b

theorem absorb_absorbs (b : Breaker) (o : CallOutcome) (now : Time) :
    b.Absorbs o now (b.absorb o now).1 := by
  unfold absorb
  split
  · next closed =>
    dsimp only
    split
    · next trips => exact .tripped closed (shouldOpen_iff.mp trips)
    · next calm => exact .counted closed fun trips => calm (shouldOpen_iff.mpr trips)
  · next halfOpen =>
    split
    · next failed => exact .reopened halfOpen failed
    · next passed =>
      dsimp only
      split
      · next enough => exact .recovered halfOpen passed enough
      · next fewer => exact .succeeded halfOpen passed (Nat.lt_of_not_le fewer)
  · next opened => exact .ignored opened

def outcome (b : Breaker) (permit : Permit) (failed : Bool) (now : Time) : CallOutcome :=
  .classify failed (now - permit.started) b.config.slowAfter

theorem record_eq (b : Breaker) (permit : Permit) (failed : Bool) (now : Time) :
    (b.record permit failed now).1 =
      if permit.generation = b.generation then (b.absorb (b.outcome permit failed now) now).1 else b := by
  unfold record outcome
  dsimp only
  split <;> rfl

inductive Act
  | tryAcquire
  /-- Reports the end of a call whose permit was the `k`th to be issued. -/
  | record (k : Nat) (failed : Bool)
  | force (target : CircuitState)
  | reset
  | elapse (d : Duration)
  deriving DecidableEq, Repr

def Act.isForced : Act → Bool
  | .force _ | .reset => true
  | _ => false

end Breaker

open Breaker

structure Course where
  breaker : Breaker
  clock : Time
  issued : List Permit := []

namespace Course

def start (name : String) (config : CircuitConfig) (clock : Time) : Course where
  breaker := .create name config
  clock

def act (c : Course) : Act → Course
  | .tryAcquire =>
    let (answer, b, _) := c.breaker.tryAcquire c.clock
    { c with breaker := b, issued := c.issued ++ answer.toOption.toList }
  | .record k failed =>
    match c.issued[k]? with
    | some permit => { c with breaker := (c.breaker.record permit failed c.clock).1 }
    | none => c
  | .force target => { c with breaker := (c.breaker.force target c.clock).1 }
  | .reset => { c with breaker := (c.breaker.reset c.clock).1 }
  | .elapse d => { c with clock := c.clock + d }

def run (c : Course) (acts : List Act) : Course := acts.foldl act c

/-- The number of the permit that an act reports on, and how its call counts. -/
def report? (c : Course) : Act → Option (Nat × CallOutcome)
  | .record k failed => c.issued[k]?.map fun permit => (k, c.breaker.outcome permit failed c.clock)
  | _ => none

variable {c c' : Course} {a : Act}

/-- Everything that one act can do to the state, the window and the permits. -/
inductive Turn (c : Course) (a : Act) (c' : Course) : Prop
  | rests {more : List Permit} (alike : c.breaker.Alike c'.breaker) (issued : c'.issued = c.issued ++ more)
      (own : ∀ p ∈ more, p.generation = c.breaker.generation) (unforced : a.isForced = false)
      (uncounted : c.breaker.state = .closed → ∀ k o, c.report? a = some (k, o) →
        ∃ permit, c.issued[k]? = some permit ∧ permit.generation ≠ c.breaker.generation)
  | moves (target : CircuitState) {more : List Permit} (moved : c.breaker.Moves target c'.breaker)
      (issued : c'.issued = c.issued ++ more)
      (own : ∀ p ∈ more, target = .halfOpen ∧ p.generation = c'.breaker.generation)
      (why : c.breaker.state ≠ .closed ∨ a.isForced = true)
  | counts {k : Nat} {o : CallOutcome} {permit : Permit} (closed : c.breaker.state = .closed)
      (report : c.report? a = some (k, o)) (here : c.issued[k]? = some permit)
      (own : permit.generation = c.breaker.generation)
      (calm : ¬ (c.breaker.window.record o).Trips c.breaker.config)
      (alike : { c.breaker with window := c.breaker.window.record o }.Alike c'.breaker)
      (issued : c'.issued = c.issued)
  | trips {k : Nat} {o : CallOutcome} {permit : Permit} (closed : c.breaker.state = .closed)
      (report : c.report? a = some (k, o)) (here : c.issued[k]? = some permit)
      (own : permit.generation = c.breaker.generation)
      (trips : (c.breaker.window.record o).Trips c.breaker.config)
      (moved : { c.breaker with window := c.breaker.window.record o }.Moves .opened c'.breaker)
      (issued : c'.issued = c.issued)

theorem turn_tryAcquire (c : Course) : c.Turn .tryAcquire (c.act .tryAcquire) := by
  have admits := c.breaker.tryAcquire_admits c.clock
  unfold act
  dsimp only
  generalize (c.breaker.tryAcquire c.clock).1 = answer at admits
  generalize (c.breaker.tryAcquire c.clock).2.1 = b at admits
  have alike : (c.breaker.looked c.clock).Alike b := by cases admits <;> exact ⟨rfl,rfl,rfl,rfl⟩
  have own : ∀ p ∈ answer.toOption.toList, p.generation = (c.breaker.looked c.clock).generation := by
    cases admits <;> simp [Except.toOption,permit]
  rcases c.breaker.looked_cases c.clock with same | ⟨opened,moved⟩
  · rw [same] at alike own
    exact .rests alike rfl own rfl fun _ _ _ report => by cases report
  · refine .moves .halfOpen ⟨?_,?_,?_,?_⟩ rfl (fun p member => ⟨rfl,?_⟩) (.inl ?_)
    · exact alike.config.trans moved.config
    · exact alike.state.trans moved.state
    · exact alike.generation.trans moved.generation
    · exact alike.window.trans moved.window
    · exact (own p member).trans alike.generation.symm
    · simp [opened]

theorem turn_record (c : Course) (k : Nat) (failed : Bool) :
    c.Turn (.record k failed) (c.act (.record k failed)) := by
  unfold act
  dsimp only
  cases here : c.issued[k]? with
  | none =>
    refine .rests ⟨rfl,rfl,rfl,rfl⟩ (List.append_nil _).symm (by simp) rfl fun _ k' o report => ?_
    simp [report?,here] at report
  | some permit =>
    have report : c.report? (.record k failed) = some (k, c.breaker.outcome permit failed c.clock) := by
      simp [report?,here]
    dsimp only
    rw [record_eq]
    by_cases own : permit.generation = c.breaker.generation
    · rw [if_pos own]
      have absorbs := c.breaker.absorb_absorbs (c.breaker.outcome permit failed c.clock) c.clock
      generalize (c.breaker.absorb (c.breaker.outcome permit failed c.clock) c.clock).1 = b at absorbs
      have half {b : Breaker} (alike : c.breaker.Alike b) (other : c.breaker.state ≠ .closed) :
          c.Turn (.record k failed) { c with breaker := b } :=
        .rests alike (List.append_nil _).symm (by simp) rfl fun closed => absurd closed other
      have moves {target : CircuitState} {b : Breaker} (moved : c.breaker.Moves target b)
          (other : c.breaker.state ≠ .closed) : c.Turn (.record k failed) { c with breaker := b } :=
        .moves target moved (List.append_nil _).symm (by simp) (.inl other)
      cases absorbs with
      | counted closed calm => exact .counts closed report here own calm ⟨rfl,rfl,rfl,rfl⟩ rfl
      | tripped closed trips => exact .trips closed report here own trips (transition_moves _ _ _) rfl
      | reopened halfOpen failed => exact moves (transition_moves _ _ _) (by simp [halfOpen])
      | succeeded halfOpen passed fewer => exact half ⟨rfl,rfl,rfl,rfl⟩ (by simp [halfOpen])
      | recovered halfOpen passed enough => exact moves ⟨rfl,rfl,rfl,rfl⟩ (by simp [halfOpen])
      | ignored opened => exact half ⟨rfl,rfl,rfl,rfl⟩ (by simp [opened])
    · rw [if_neg own]
      refine .rests ⟨rfl,rfl,rfl,rfl⟩ (List.append_nil _).symm (by simp) rfl fun _ k' o report' => ?_
      cases report.symm.trans report'
      exact ⟨permit,here,own⟩

theorem act_turn (c : Course) (a : Act) : c.Turn a (c.act a) := by
  cases a with
  | tryAcquire => exact c.turn_tryAcquire
  | record k failed => exact c.turn_record k failed
  | force target => exact .moves target (transition_moves _ _ _) (List.append_nil _).symm (by simp) (.inr rfl)
  | reset =>
    exact .moves .closed ⟨rfl,rfl,rfl,rfl⟩ (List.append_nil _).symm (by simp) (.inr rfl)
  | elapse d =>
    refine .rests ⟨rfl,rfl,rfl,rfl⟩ (List.append_nil _).symm (by simp) rfl fun _ _ _ report => ?_
    cases report

namespace Turn

theorem config_eq (turn : c.Turn a c') : c'.breaker.config = c.breaker.config := by
  cases turn with
  | rests alike | counts _ _ _ _ _ alike => exact alike.config
  | moves _ moved | trips _ _ _ _ _ moved => exact moved.config

theorem capacity_eq (turn : c.Turn a c') : c'.breaker.window.capacity = c.breaker.window.capacity := by
  cases turn with
  | rests alike => rw [alike.window]
  | counts _ _ _ _ _ alike => rw [alike.window,CircuitWindow.capacity_record]
  | trips _ _ _ _ _ moved => simp [moved.window]
  | moves _ moved =>
    rw [moved.window]
    split <;> rfl

theorem generation_le (turn : c.Turn a c') : c.breaker.generation ≤ c'.breaker.generation := by
  cases turn with
  | rests alike | counts _ _ _ _ _ alike => exact Nat.le_of_eq alike.generation.symm
  | moves _ moved | trips _ _ _ _ _ moved => exact moved.generation ▸ Nat.le_succ _

theorem exists_issued (turn : c.Turn a c') : ∃ more, c'.issued = c.issued ++ more ∧
    ∀ p ∈ more, p.generation = c'.breaker.generation := by
  cases turn with
  | rests alike issued own => exact ⟨_,issued,fun p member => (own p member).trans alike.generation.symm⟩
  | moves _ _ issued own => exact ⟨_,issued,fun p member => (own p member).2⟩
  | counts _ _ _ _ _ _ issued | trips _ _ _ _ _ _ issued => exact ⟨[],by simpa using issued,by simp⟩

end Turn

end Course

end VersionedLedger

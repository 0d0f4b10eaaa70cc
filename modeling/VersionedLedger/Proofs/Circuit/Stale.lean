import VersionedLedger.Proofs.Circuit.Change

/-! Outcomes that come too late. A report is stale if its permit was issued before the last change of state, be
it a change to the same state. Two runs that differ in stale reports only cannot be told apart: neither by the
answers to requests, nor by looking at the breaker, nor by listening to it. -/
namespace VersionedLedger

open Breaker

/-- What can be done with a breaker, a look at its state and its metrics included. -/
inductive Use
  | act (a : Act)
  | state
  | metrics

/-- What a use lets its caller and the listeners know. -/
structure Shown where
  answer : Option (Except Error Permit) := none
  state : Option CircuitState := none
  metrics : Option CircuitMetrics := none
  events : List Event := []

structure Entry where
  use : Use
  stale : Bool
  shown : Shown

/-- It reports on one of the first `old` permits. -/
def Use.isStale (old : Nat) : Use → Bool
  | .act (.record k _) => k < old
  | _ => false

def Event.isTransition : Event → Bool
  | .transition .. => true
  | _ => false

namespace Course

def shows (c : Course) : Act → Shown
  | .tryAcquire =>
    let (answer, _, events) := c.breaker.tryAcquire c.clock
    { answer := some answer, events }
  | .record k failed =>
    match c.issued[k]? with
    | some permit => { events := (c.breaker.record permit failed c.clock).2 }
    | none => {}
  | .force target => { events := (c.breaker.force target c.clock).2 }
  | .reset => { events := (c.breaker.reset c.clock).2 }
  | .elapse _ => {}

def use (c : Course) : Use → Course × Shown
  | .act a => (c.act a, c.shows a)
  | .state => (c, { state := some c.breaker.state })
  | .metrics => (c, { metrics := some c.breaker.metrics })

def outdatedBy (c : Course) (old : Nat) : Use → Nat
  | .act a => c.outdated old a
  | _ => old

def log (c : Course) (old : Nat) : List Use → List Entry
  | [] => []
  | u :: uses => ⟨u,u.isStale old,(c.use u).2⟩ :: (c.use u).1.log (c.outdatedBy old u) uses

def after (c : Course) (uses : List Use) : Course := uses.foldl (fun c u => (c.use u).1) c

variable {c : Course} {old k : Nat} {failed : Bool}

theorem not_changes_of_same {a : Act} (same : c.act a = c) (unforced : a.isForced = false) :
    ¬ c.Changes a := by
  rintro (other | forced)
  · rw [same] at other
    exact other rfl
  · cases unforced.symm.trans forced

theorem outdatedBy_of_same {a : Act} (same : c.act a = c) (unforced : a.isForced = false) :
    c.outdatedBy old (.act a) = old := if_neg (not_changes_of_same same unforced)

theorem Dated.use (dated : Dated old c) (u : Use) : Dated (c.outdatedBy old u) (c.use u).1 := by
  cases u with
  | act a => exact dated.act a
  | state | metrics => exact dated

theorem Dated.use_of_stale (dated : Dated old c) {u : Use} (stale : u.isStale old = true) :
    (c.use u).1 = c ∧ c.outdatedBy old u = old ∧ ∀ e ∈ (c.use u).2.events, e.isTransition = false := by
  cases u with
  | state | metrics => cases stale
  | act a =>
    cases a with
    | tryAcquire | force | reset | elapse => cases stale
    | record k failed =>
      have early : k < old := of_decide_eq_true stale
      have same := dated.act_record early failed
      refine ⟨same,outdatedBy_of_same same rfl,?_⟩
      unfold Course.use shows
      dsimp only
      split
      · next permit here =>
        have other : permit.generation ≠ c.breaker.generation := fun own =>
          Nat.not_le_of_lt early ((dated.own k permit here).mp own)
        simp [record,other,Event.isTransition]
      · simp

theorem Dated.log_kept (dated : Dated old c) (uses : List Use) :
    c.log old (((c.log old uses).filter fun e => !e.stale).map Entry.use) =
      (c.log old uses).filter fun e => !e.stale := by
  induction uses generalizing c old with
  | nil => rfl
  | cons u uses ih =>
    have rest := ih (dated.use u)
    cases stale : u.isStale old with
    | true =>
      obtain ⟨same,kept,_⟩ := dated.use_of_stale stale
      rw [same,kept] at rest
      simpa [log,stale,same,kept] using rest
    | false => simpa [log,stale] using rest

theorem Dated.not_transition (dated : Dated old c) {uses : List Use} {e : Entry}
    (member : e ∈ c.log old uses) (stale : e.stale = true) :
    ∀ event ∈ e.shown.events, event.isTransition = false := by
  induction uses generalizing c old with
  | nil => cases member
  | cons u uses ih =>
    rcases List.mem_cons.mp member with first | later
    · subst first
      exact (dated.use_of_stale stale).2.2
    · exact ih (dated.use u) later

theorem length_log (c : Course) (old : Nat) (uses : List Use) : (c.log old uses).length = uses.length := by
  induction uses generalizing c old with
  | nil => rfl
  | cons u uses ih => simp [log,ih]

theorem exists_log_append (c : Course) (old : Nat) (before : List Use) :
    ∃ now, ∀ later, c.log old (before ++ later) = c.log old before ++ (c.after before).log now later := by
  induction before generalizing c old with
  | nil => exact ⟨old,fun later => rfl⟩
  | cons u before ih =>
    obtain ⟨now,same⟩ := ih (c.use u).1 (c.outdatedBy old u)
    exact ⟨now,fun later => congrArg _ (same later)⟩

theorem eraseIdx_log_of_opened {before : List Use} (opened : (c.after before).breaker.state = .opened)
    (old k : Nat) (failed : Bool) (later : List Use) :
    (c.log old (before ++ .act (.record k failed) :: later)).eraseIdx before.length =
      c.log old (before ++ later) := by
  obtain ⟨now,split⟩ := c.exists_log_append old before
  have same := act_record_of_opened opened k failed
  have rest : (c.after before).log now (.act (.record k failed) :: later) =
      ⟨.act (.record k failed),decide (k < now),(c.after before).shows (.record k failed)⟩ ::
        ((c.after before).act (.record k failed)).log
          ((c.after before).outdatedBy now (.act (.record k failed))) later := rfl
  rw [same,outdatedBy_of_same same rfl] at rest
  rw [split,split,rest,List.eraseIdx_append_of_length_le (Nat.le_of_eq (c.length_log old before)),
    length_log,Nat.sub_self,List.eraseIdx_cons_zero]

/-- Left without its stale reports, a run shows everything else as before, and they had no change of state to
show. In particular, a report that comes while the breaker is open can be left out. -/
theorem log_without_stale (name : String) (config : CircuitConfig) (clock : Time) (uses : List Use) :
    let c := start name config clock
    let kept := (c.log 0 uses).filter fun e => !e.stale
    c.log 0 (kept.map Entry.use) = kept ∧
    (∀ e ∈ c.log 0 uses, e.stale = true → ∀ event ∈ e.shown.events, event.isTransition = false) ∧
    ∀ before k failed later, (c.after before).breaker.state = .opened →
      (c.log 0 (before ++ .act (.record k failed) :: later)).eraseIdx before.length =
        c.log 0 (before ++ later) := by
  have dated := dated_start name config clock
  refine ⟨dated.log_kept uses,fun e member => dated.not_transition member,?_⟩
  intro before k failed later opened
  exact eraseIdx_log_of_opened opened 0 k failed later

/-- To be forced to the state it is in makes the permit of a closed breaker stale. -/
example : ((start "transfer" {} 0).log 0
    [.act .tryAcquire,.act (.force .closed),.act (.record 0 true),.metrics]).map Entry.stale =
      [false,false,true,false] := by decide +kernel

end Course

end VersionedLedger

import VersionedLedger.Proofs.Circuit.Stale

/-! The path that a breaker takes through its states, as its listeners hear of it, beside the state and the two
counters that the breaker keeps itself. The three are moved in different places, some of them twice within one
request; what is announced always leads from the state before to the state after. -/
namespace VersionedLedger

open Breaker

namespace CircuitState

/-- Each change starts where the one before has ended. -/
inductive Leads : CircuitState → List (CircuitState × CircuitState) → CircuitState → Prop
  | nil (state : CircuitState) : Leads state [] state
  | cons {before after last : CircuitState} {changes : List (CircuitState × CircuitState)} :
    Leads after changes last → Leads before ((before, after) :: changes) last

/-- The changes that a breaker makes without being told to. -/
inductive Natural : CircuitState → CircuitState → Prop
  | trips : Natural closed opened
  | probes : Natural opened halfOpen
  | reopens : Natural halfOpen opened
  | recovers : Natural halfOpen closed

theorem Leads.append {first middle last : CircuitState} {before after : List (CircuitState × CircuitState)}
    (leads : Leads first before middle) (further : Leads middle after last) :
    Leads first (before ++ after) last := by
  induction leads with
  | nil => exact further
  | cons _ ih => exact .cons (ih further)

end CircuitState

open CircuitState

namespace Event

def change? : Event → Option (CircuitState × CircuitState)
  | .transition _ before after => some (before, after)
  | _ => none

def isRefusal : Event → Bool
  | .call _ .notPermitted => true
  | _ => false

end Event

def Use.isForced : Use → Bool
  | .act a => a.isForced
  | _ => false

def Use.isReset : Use → Bool
  | .act .reset => true
  | _ => false

theorem Use.eq_reset {u : Use} (reset : u.isReset = true) : u = .act .reset := by
  unfold isReset at reset
  split at reset
  · rfl
  · cases reset

namespace Breaker

variable {b b' b'' : Breaker} {events more : List Event}

/-- Listeners who hear of these events can follow the state and both counters. -/
structure Tells (b : Breaker) (events : List Event) (b' : Breaker) : Prop where
  leads : Leads b.state (events.filterMap Event.change?) b'.state
  transitions : b'.transitions = b.transitions + events.countP Event.isTransition
  refusals : b'.notPermitted = b.notPermitted + events.countP Event.isRefusal

theorem tells_nil (state : b'.state = b.state) (transitions : b'.transitions = b.transitions)
    (refusals : b'.notPermitted = b.notPermitted) : b.Tells [] b' :=
  ⟨state ▸ .nil _,transitions,refusals⟩

theorem Tells.of_alike (tells : b'.Tells events b'') (state : b'.state = b.state)
    (transitions : b'.transitions = b.transitions) (refusals : b'.notPermitted = b.notPermitted) :
    b.Tells events b'' :=
  ⟨state ▸ tells.leads,transitions ▸ tells.transitions,refusals ▸ tells.refusals⟩

theorem Tells.append (tells : b.Tells events b') (further : b'.Tells more b'') :
    b.Tells (events ++ more) b'' := by
  refine ⟨?_,?_,?_⟩
  · rw [List.filterMap_append]
    exact tells.leads.append further.leads
  · rw [further.transitions,tells.transitions,List.countP_append,Nat.add_assoc]
  · rw [further.refusals,tells.refusals,List.countP_append,Nat.add_assoc]

theorem tells_transition (b : Breaker) (target : CircuitState) (now : Time) :
    b.Tells (b.transition target now).2 (b.transition target now).1 := by
  by_cases same : b.state = target
  · have silent : (b.transition target now).2 = [] := if_pos same
    rw [silent]
    exact tells_nil same.symm (congrArg (b.transitions + ·) (if_pos same)) rfl
  · have heard : (b.transition target now).2 = [.transition b.name b.state target] := if_neg same
    rw [heard]
    exact ⟨.cons (.nil _),congrArg (b.transitions + ·) (if_neg same),rfl⟩

theorem tells_admitCall (b : Breaker) (now : Time) :
    b.Tells (b.admitCall now).2.2 (b.admitCall now).2.1 := by
  unfold admitCall
  dsimp only
  split
  · exact tells_nil rfl rfl rfl
  · split
    · exact tells_nil rfl rfl rfl
    · exact ⟨.nil _,rfl,rfl⟩
  · exact ⟨.nil _,rfl,rfl⟩

theorem tells_tryAcquire (b : Breaker) (now : Time) :
    b.Tells (b.tryAcquire now).2.2 (b.tryAcquire now).2.1 := by
  unfold tryAcquire
  split
  · exact (b.tells_transition .halfOpen now).append (tells_admitCall _ now)
  · exact b.tells_admitCall now

theorem tells_absorb (b : Breaker) (o : CallOutcome) (now : Time) :
    b.Tells (b.absorb o now).2 (b.absorb o now).1 := by
  unfold absorb
  split
  · dsimp only
    split
    · exact (tells_transition _ .opened now).of_alike rfl rfl rfl
    · exact tells_nil rfl rfl rfl
  · split
    · exact b.tells_transition .opened now
    · dsimp only
      split
      · exact (tells_transition _ .closed now).of_alike rfl rfl rfl
      · exact tells_nil rfl rfl rfl
  · exact tells_nil rfl rfl rfl

theorem tells_announced (b : Breaker) (o : CallOutcome) : b.Tells [.call b.name (kindOf o)] b := by
  refine ⟨.nil _,rfl,?_⟩
  cases o <;> rfl

theorem tells_record (b : Breaker) (permit : Permit) (failed : Bool) (now : Time) :
    b.Tells (b.record permit failed now).2 (b.record permit failed now).1 := by
  unfold record
  dsimp only
  split
  · exact (b.tells_announced _).append (b.tells_absorb _ now)
  · exact b.tells_announced _

theorem mem_transition {target : CircuitState} (now : Time) {name : String} {before after : CircuitState}
    (heard : Event.transition name before after ∈ (b.transition target now).2) :
    before = b.state ∧ after = target ∧ before ≠ after := by
  by_cases same : b.state = target
  · simp [transition,same] at heard
  · simp only [transition,if_neg same,List.mem_singleton,Event.transition.injEq] at heard
    obtain ⟨_,rfl,rfl⟩ := heard
    exact ⟨rfl,rfl,same⟩

theorem not_mem_admitCall (b : Breaker) (now : Time) (name : String) (before after : CircuitState) :
    Event.transition name before after ∉ (b.admitCall now).2.2 := by
  unfold admitCall
  dsimp only
  split
  · simp
  · split <;> simp
  · simp

theorem natural_tryAcquire {now : Time} {name : String} {before after : CircuitState}
    (heard : Event.transition name before after ∈ (b.tryAcquire now).2.2) : Natural before after := by
  unfold tryAcquire at heard
  split at heard
  · next ready =>
    have opened : b.state = .opened := by simp_all [readyToProbe]
    rcases List.mem_append.mp heard with moved | admitted
    · obtain ⟨rfl,rfl,_⟩ := mem_transition now moved
      rw [opened]
      exact .probes
    · exact absurd admitted (not_mem_admitCall _ now name before after)
  · exact absurd heard (not_mem_admitCall _ now name before after)

theorem natural_absorb {o : CallOutcome} {now : Time} {name : String} {before after : CircuitState}
    (heard : Event.transition name before after ∈ (b.absorb o now).2) : Natural before after := by
  unfold absorb at heard
  split at heard
  · next closed =>
    dsimp only at heard
    split at heard
    · obtain ⟨rfl,rfl,_⟩ := mem_transition now heard
      exact closed ▸ .trips
    · cases heard
  · next halfOpen =>
    split at heard
    · obtain ⟨rfl,rfl,_⟩ := mem_transition now heard
      exact halfOpen ▸ .reopens
    · dsimp only at heard
      split at heard
      · obtain ⟨rfl,rfl,_⟩ := mem_transition now heard
        exact halfOpen ▸ .recovers
      · cases heard
  · cases heard

theorem natural_record {permit : Permit} {failed : Bool} {now : Time} {name : String}
    {before after : CircuitState}
    (heard : Event.transition name before after ∈ (b.record permit failed now).2) : Natural before after := by
  unfold record at heard
  dsimp only at heard
  split at heard
  · rcases List.mem_cons.mp heard with announced | moved
    · cases announced
    · exact natural_absorb moved
  · simp at heard

end Breaker

theorem CircuitState.Natural.ne {before after : CircuitState} (natural : Natural before after) :
    before ≠ after := by
  cases natural <;> exact CircuitState.noConfusion

namespace Course

variable {c : Course} {u : Use}

theorem tells_use (c : Course) (other : u.isReset = false) :
    c.breaker.Tells (c.use u).2.events (c.use u).1.breaker := by
  cases u with
  | state | metrics => exact tells_nil rfl rfl rfl
  | act a =>
    cases a with
    | tryAcquire => exact c.breaker.tells_tryAcquire c.clock
    | record k failed =>
      unfold use shows act
      dsimp only
      cases c.issued[k]? with
      | some permit => exact c.breaker.tells_record permit failed c.clock
      | none => exact tells_nil rfl rfl rfl
    | force target => exact c.breaker.tells_transition target c.clock
    | reset => cases other
    | elapse => exact tells_nil rfl rfl rfl

theorem leads_use (c : Course) (u : Use) :
    Leads c.breaker.state ((c.use u).2.events.filterMap Event.change?) (c.use u).1.breaker.state := by
  cases reset : u.isReset with
  | false => exact (c.tells_use reset).leads
  | true =>
    cases u.eq_reset reset
    exact (c.breaker.tells_transition .closed c.clock).leads

theorem natural_use (unforced : u.isForced = false) {name : String} {before after : CircuitState}
    (heard : Event.transition name before after ∈ (c.use u).2.events) : Natural before after := by
  cases u with
  | state | metrics => cases heard
  | act a =>
    cases a with
    | tryAcquire => exact natural_tryAcquire heard
    | record k failed =>
      unfold use shows at heard
      dsimp only at heard
      split at heard
      · exact natural_record heard
      · cases heard
    | force | reset => cases unforced
    | elapse => cases heard

theorem ends_use {name : String} {before after : CircuitState}
    (heard : Event.transition name before after ∈ (c.use u).2.events) : before ≠ after := by
  cases forced : u.isForced with
  | false => exact (natural_use forced heard).ne
  | true =>
    cases u with
    | state | metrics => cases forced
    | act a =>
      cases a with
      | tryAcquire | record | elapse => cases forced
      | force target => exact (mem_transition c.clock heard).2.2
      | reset => exact (mem_transition c.clock heard).2.2

def heard (entries : List Entry) : List Event := entries.flatMap fun e => e.shown.events

def sinceReset (entries : List Entry) : List Event :=
  entries.foldl (fun before e => if e.use.isReset then [] else before ++ e.shown.events) []

structure Tallies (events : List Event) (b : Breaker) : Prop where
  transitions : b.transitions = events.countP Event.isTransition
  refusals : b.notPermitted = events.countP Event.isRefusal

theorem Tallies.use {events : List Event} (tallies : Tallies events c.breaker) (u : Use) :
    Tallies (if u.isReset then [] else events ++ (c.use u).2.events) (c.use u).1.breaker := by
  cases reset : u.isReset with
  | true =>
    cases Use.eq_reset reset
    exact ⟨rfl,rfl⟩
  | false =>
    have tells := c.tells_use reset
    refine ⟨?_,?_⟩
    · rw [tells.transitions,tallies.transitions,← List.countP_append]
      rfl
    · rw [tells.refusals,tallies.refusals,← List.countP_append]
      rfl

theorem tallies_after {events : List Event} (tallies : Tallies events c.breaker) (old : Nat) (uses : List Use) :
    Tallies ((c.log old uses).foldl
      (fun before e => if e.use.isReset then [] else before ++ e.shown.events) events)
      (c.after uses).breaker := by
  induction uses generalizing c old events with
  | nil => exact tallies
  | cons u uses ih => exact ih (tallies.use u) (c.outdatedBy old u)

theorem leads_after (c : Course) (old : Nat) (uses : List Use) :
    Leads c.breaker.state ((heard (c.log old uses)).filterMap Event.change?) (c.after uses).breaker.state := by
  induction uses generalizing c old with
  | nil => exact .nil _
  | cons u uses ih =>
    have rest := ih (c.use u).1 (c.outdatedBy old u)
    rw [log,heard,List.flatMap_cons,List.filterMap_append]
    exact (c.leads_use u).append rest

theorem exists_use {old : Nat} {uses : List Use} {e : Entry} (member : e ∈ c.log old uses) :
    ∃ c : Course, e.shown = (c.use e.use).2 := by
  induction uses generalizing c old with
  | nil => cases member
  | cons u uses ih =>
    rcases List.mem_cons.mp member with first | later
    · subst first
      exact ⟨c,rfl⟩
    · exact ih later

/-- However a breaker is used, and whosever permits are reported to it: the changes announced are one path from
closed to the state that it is in, none of them stays where it starts, and a breaker that is not told to change
only trips, probes, reopens or recovers. Its counters are the numbers of changes and of refusals announced since
it was last reset. -/
theorem heard_connected (name : String) (config : CircuitConfig) (clock : Time) (issued : List Permit)
    (uses : List Use) :
    let c := { start name config clock with issued }
    let entries := c.log 0 uses
    let b := (c.after uses).breaker
    Leads .closed ((heard entries).filterMap Event.change?) b.state ∧
    (∀ name before after, Event.transition name before after ∈ heard entries → before ≠ after) ∧
    (∀ e ∈ entries, e.use.isForced = false → ∀ name before after,
      Event.transition name before after ∈ e.shown.events → Natural before after) ∧
    b.metrics.transitions = (sinceReset entries).countP Event.isTransition ∧
    b.metrics.notPermitted = (sinceReset entries).countP Event.isRefusal := by
  intro c entries b
  have tallies : Tallies (sinceReset entries) b := tallies_after ⟨rfl,rfl⟩ 0 uses
  refine ⟨c.leads_after 0 uses,?_,?_,tallies.transitions,tallies.refusals⟩
  · intro name before after announced
    obtain ⟨e,member,shown⟩ := List.mem_flatMap.mp announced
    obtain ⟨other,same⟩ := exists_use member
    rw [same] at shown
    exact ends_use shown
  · intro e member unforced name before after shown
    obtain ⟨other,same⟩ := exists_use member
    rw [same] at shown
    exact natural_use unforced shown

/-- To be forced open makes one step of the path, whose two ends the next request moves on from. -/
example : (heard ((start "transfer" { waitDuration := 0 } 0).log 0
    [.act (.force .opened),.act .tryAcquire,.act (.force .halfOpen)])).filterMap Event.change? =
      [(.closed,.opened),(.opened,.halfOpen)] := by decide +kernel

end Course

end VersionedLedger

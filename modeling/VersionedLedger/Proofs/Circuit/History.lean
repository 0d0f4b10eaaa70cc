import VersionedLedger.Proofs.Circuit.Course

/-! A closed breaker judges by what has been reported since it last came to be closed, on permits that it has
issued since, and by nothing else: it never sees an outcome of an earlier generation, and none of its own is
lost before as many newer ones have come in as the window holds. -/
namespace VersionedLedger

open Breaker CircuitWindow

/-- What has been reported since a breaker was created, closed, or forced or reset to closed. -/
structure History where
  /-- The number of permits that had been issued by then. -/
  issued : Nat := 0
  outcomes : List CallOutcome := []

/-- The breaker comes to be closed, or is closed anew. -/
def Course.Closes (c : Course) (a : Act) : Prop :=
  (c.act a).breaker.state = .closed ∧ (c.breaker.state ≠ .closed ∨ a.isForced = true)

instance (c : Course) (a : Act) : Decidable (c.Closes a) := inferInstanceAs (Decidable (_ ∧ _))

theorem CircuitConfig.of_validate {config : CircuitConfig} (valid : config.validate = .ok ()) :
    1 ≤ config.slidingWindowSize ∧ 1 ≤ config.minimumCalls := by
  obtain ⟨positive,needed,_⟩ := bounds_of_validate valid
  exact ⟨positive,needed⟩

namespace History

/-- Only permits issued since then count, however often they are reported. -/
def next (h : History) (c : Course) (a : Act) : History :=
  if c.Closes a then { issued := (c.act a).issued.length }
  else match c.report? a with
    | some (k, o) => if h.issued ≤ k then { h with outcomes := h.outcomes ++ [o] } else h
    | none => h

def after (h : History) (c : Course) : List Act → History
  | [] => h
  | a :: acts => (h.next c a).after (c.act a) acts

variable {h : History} {c c' : Course} {a : Act} {config : CircuitConfig} {k : Nat} {o : CallOutcome}

theorem issued_next (stays : ¬ c.Closes a) : (h.next c a).issued = h.issued := by
  unfold next
  rw [if_neg stays]
  split
  · split <;> rfl
  · rfl

theorem next_of_report (stays : ¬ c.Closes a) (report : c.report? a = some (k, o)) (since : h.issued ≤ k) :
    h.next c a = { h with outcomes := h.outcomes ++ [o] } := by
  simp [next,stays,report,since]

theorem next_eq_self (stays : ¬ c.Closes a) (unheard : ∀ k o, c.report? a = some (k, o) → ¬ h.issued ≤ k) :
    h.next c a = h := by
  unfold next
  rw [if_neg stays]
  split
  · next report => rw [if_neg (unheard _ _ report)]
  · rfl

/-- A closed breaker holds the outcomes of its history, they do not call for opening it, and the permits that
count are those of its generation. -/
structure Holds (config : CircuitConfig) (h : History) (c : Course) : Prop where
  window : c.breaker.window = holding config.slidingWindowSize h.outcomes
  calm : ¬ c.breaker.window.Trips config
  own : ∀ k permit, c.issued[k]? = some permit → (permit.generation = c.breaker.generation ↔ h.issued ≤ k)

structure Agrees (config : CircuitConfig) (h : History) (c : Course) : Prop where
  closed : c.breaker.state = .closed → h.Holds config c
  configured : c.breaker.config = config
  capacity : c.breaker.window.capacity = config.slidingWindowSize
  past : ∀ permit ∈ c.issued, permit.generation ≤ c.breaker.generation
  since : h.issued ≤ c.issued.length

theorem not_trips_holding_nil (needed : 1 ≤ config.minimumCalls) (capacity : Nat) :
    ¬ (holding capacity []).Trips config := by
  intro trips
  have none : (holding capacity []).length = 0 := by simp [holding_nil,length]
  have few := trips.1
  omega

theorem agrees_start (name : String) (clock : Time) (positive : 1 ≤ config.slidingWindowSize)
    (needed : 1 ≤ config.minimumCalls) : History.Agrees config {} (.start name config clock) := by
  have empty : (Course.start name config clock).breaker.window = holding config.slidingWindowSize [] := by
    rw [holding_nil]
    change ofCapacity config.slidingWindowSize = _
    rw [ofCapacity,Nat.max_eq_left positive]
  refine ⟨fun _ => ⟨empty,?_,fun k permit here => ?_⟩,rfl,?_,fun permit member => ?_,Nat.le_refl _⟩
  · rw [empty]
    exact not_trips_holding_nil needed _
  · cases here
  · rw [empty]
    rfl
  · cases member

namespace Agrees

theorem not_closes_of_alike {b : Breaker} (alike : b.Alike (c.act a).breaker) (same : b.state = c.breaker.state)
    (unforced : a.isForced = false) : ¬ c.Closes a := by
  rintro ⟨closed,other | forced⟩
  · exact other (same.symm.trans (alike.state.symm.trans closed))
  · cases unforced.symm.trans forced

theorem unforced_of_report (report : c.report? a = some (k, o)) : a.isForced = false := by
  cases a with
  | record => rfl
  | _ => cases report

theorem closed_act (agrees : h.Agrees config c) (needed : 1 ≤ config.minimumCalls)
    (positive : 1 ≤ config.slidingWindowSize) (closed : (c.act a).breaker.state = .closed) :
    (h.next c a).Holds config (c.act a) := by
  cases c.act_turn a with
  | @rests more alike issued own unforced uncounted =>
    have was := alike.state.symm.trans closed
    have holds := agrees.closed was
    -- a report that the breaker ignores is on a permit from before it came to be closed
    have same : h.next c a = h := by
      refine next_eq_self (not_closes_of_alike alike rfl unforced) fun k o report since => ?_
      obtain ⟨permit,here,earlier⟩ := uncounted was k o report
      exact earlier ((holds.own k permit here).mpr since)
    rw [same]
    refine ⟨alike.window.trans holds.window,?_,fun k permit here => ?_⟩
    · rw [alike.window]
      exact holds.calm
    · rw [issued] at here
      rw [alike.generation]
      rcases Nat.lt_or_ge k c.issued.length with old | new
      · rw [List.getElem?_append_left old] at here
        exact holds.own k permit here
      · rw [List.getElem?_append_right new] at here
        exact iff_of_true (own permit (List.mem_of_getElem? here)) (Nat.le_trans agrees.since new)
  | @moves target more moved issued own why =>
    -- the generation is new, so none of the permits issued so far is of it
    have target_closed : target = .closed := moved.state.symm.trans closed
    have same : (c.act a).issued = c.issued := by
      rw [issued,List.append_right_eq_self,List.eq_nil_iff_forall_not_mem]
      intro permit member
      cases target_closed.symm.trans (own permit member).1
    have fresh : h.next c a = { issued := (c.act a).issued.length } := if_pos ⟨closed,why⟩
    have empty : (c.act a).breaker.window = holding config.slidingWindowSize [] := by
      rw [moved.window,if_pos target_closed,clear_eq_holding,agrees.capacity]
    rw [fresh]
    refine ⟨empty,?_,fun k permit here => ?_⟩
    · rw [empty]
      exact not_trips_holding_nil needed _
    · have inside : k < (c.act a).issued.length := (List.getElem?_eq_some_iff.mp here).1
      rw [same] at here
      have old := agrees.past permit (List.mem_of_getElem? here)
      have later := moved.generation
      dsimp only
      omega
  | @counts k o permit was report here own calm alike issued =>
    have holds := agrees.closed was
    have stays := not_closes_of_alike alike rfl (unforced_of_report report)
    rw [next_of_report stays report ((holds.own k permit here).mp own)]
    refine ⟨?_,?_,fun k permit here => ?_⟩
    · rw [alike.window]
      dsimp only
      rw [holds.window,record_holding positive]
    · rw [alike.window,← agrees.configured]
      exact calm
    · rw [issued] at here
      rw [alike.generation]
      exact holds.own k permit here
  | trips _ _ _ _ _ moved => cases closed.symm.trans moved.state

theorem act (agrees : h.Agrees config c) (needed : 1 ≤ config.minimumCalls)
    (positive : 1 ≤ config.slidingWindowSize) (a : Act) : (h.next c a).Agrees config (c.act a) := by
  have turn := c.act_turn a
  obtain ⟨more,issued,own⟩ := turn.exists_issued
  refine ⟨agrees.closed_act needed positive,turn.config_eq.trans agrees.configured,
    turn.capacity_eq.trans agrees.capacity,fun permit member => ?_,?_⟩
  · rw [issued] at member
    rcases List.mem_append.mp member with old | new
    · exact Nat.le_trans (agrees.past permit old) turn.generation_le
    · exact Nat.le_of_eq (own permit new)
  · by_cases closes : c.Closes a
    · rw [next,if_pos closes]
    · rw [issued_next closes,issued,List.length_append]
      exact Nat.le_add_right_of_le agrees.since

theorem run (agrees : h.Agrees config c) (needed : 1 ≤ config.minimumCalls)
    (positive : 1 ≤ config.slidingWindowSize) (acts : List Act) :
    (h.after c acts).Agrees config (c.run acts) := by
  induction acts generalizing h c with
  | nil => exact agrees
  | cons a acts ih => exact ih (agrees.act needed positive a)

/-- An act that leaves the closed state has been counted if it was a report. -/
theorem window_left (agrees : h.Agrees config c) (positive : 1 ≤ config.slidingWindowSize)
    (closed : c.breaker.state = .closed) (left : (c.act a).breaker.state ≠ .closed) :
    (c.act a).breaker.window = holding config.slidingWindowSize (h.next c a).outcomes := by
  have holds := agrees.closed closed
  have stays : ¬ c.Closes a := fun closes => left closes.1
  cases c.act_turn a with
  | rests alike => exact absurd (alike.state.trans closed) left
  | @moves target _ moved _ _ why =>
    have other : target ≠ .closed := fun same => left (moved.state.trans same)
    have silent : c.report? a = none := by
      have forced := why.resolve_left (not_not_intro closed)
      cases a with
      | force | reset => rfl
      | _ => cases forced
    rw [next_eq_self stays fun k o report => by cases silent.symm.trans report]
    rw [moved.window,if_neg other,holds.window]
  | counts _ _ _ _ _ alike => exact absurd (alike.state.trans closed) left
  | @trips k o permit _ report here own _ moved =>
    rw [next_of_report stays report ((holds.own k permit here).mp own),moved.window]
    dsimp only
    rw [if_neg CircuitState.noConfusion,holds.window,record_holding positive]

theorem leaves_iff (agrees : h.Agrees config c) (positive : 1 ≤ config.slidingWindowSize)
    (closed : c.breaker.state = .closed) (unforced : a.isForced = false) :
    (c.act a).breaker.state ≠ .closed ↔ ∃ k o, c.report? a = some (k, o) ∧ h.issued ≤ k ∧
      (holding config.slidingWindowSize (h.outcomes ++ [o])).Trips config := by
  have holds := agrees.closed closed
  have recorded (o : CallOutcome) :
      c.breaker.window.record o = holding config.slidingWindowSize (h.outcomes ++ [o]) := by
    rw [holds.window,record_holding positive]
  cases c.act_turn a with
  | rests alike _ _ _ uncounted =>
    refine iff_of_false (not_not_intro (alike.state.trans closed)) ?_
    rintro ⟨k,o,report,since,_⟩
    obtain ⟨permit,here,earlier⟩ := uncounted closed k o report
    exact earlier ((holds.own k permit here).mpr since)
  | moves _ _ _ _ why => cases unforced.symm.trans (why.resolve_left (not_not_intro closed))
  | counts _ report _ _ calm alike =>
    refine iff_of_false (not_not_intro (alike.state.trans closed)) ?_
    rintro ⟨_,_,report',_,trips⟩
    cases report.symm.trans report'
    rw [recorded,agrees.configured] at calm
    exact calm trips
  | @trips k o permit _ report here own trips moved =>
    refine iff_of_true ?_ ⟨k,o,report,(holds.own k permit here).mp own,?_⟩
    · rw [moved.state]
      exact CircuitState.noConfusion
    · rwa [recorded,agrees.configured] at trips

end Agrees

end History

namespace Course

variable {c : Course} {a : Act}

theorem run_append (c : Course) (before after : List Act) :
    c.run (before ++ after) = (c.run before).run after := List.foldl_append

theorem window_act_of_ne (opened : c.breaker.state ≠ .closed) (still : (c.act a).breaker.state ≠ .closed) :
    (c.act a).breaker.window = c.breaker.window := by
  cases c.act_turn a with
  | rests alike => exact alike.window
  | moves target moved => rw [moved.window,if_neg fun same => still (moved.state.trans same)]
  | counts closed | trips closed => exact absurd closed opened

theorem window_run_of_ne {acts : List Act}
    (opened : ∀ n ≤ acts.length, (c.run (acts.take n)).breaker.state ≠ .closed) :
    (c.run acts).breaker.window = c.breaker.window := by
  induction acts generalizing c with
  | nil => rfl
  | cons a acts ih =>
    have first := opened 0 (Nat.zero_le _)
    have second := opened 1 (Nat.le_add_left 1 _)
    have rest (n : Nat) (bound : n ≤ acts.length) := opened (n + 1) (Nat.succ_le_succ bound)
    exact (ih rest).trans (window_act_of_ne first second)

/-- While it is closed, a breaker holds the last outcomes of its history, and they do not call for opening it.
Unless it is forced, it leaves the closed state at the first report with which they do; it then keeps its window
until it is closed again. -/
theorem window_of_history (name : String) (clock : Time) {config : CircuitConfig}
    (valid : config.validate = .ok ()) (acts : List Act) {h : History}
    (reached : (start name config clock).run acts = c)
    (told : History.after {} (start name config clock) acts = h) (closed : c.breaker.state = .closed) :
    c.breaker.window = holding config.slidingWindowSize h.outcomes ∧
    ¬ c.breaker.window.Trips config ∧
    (∀ a more, (∀ n ≤ more.length, ((c.act a).run (more.take n)).breaker.state ≠ .closed) →
      ((c.act a).run more).breaker.window = holding config.slidingWindowSize (h.next c a).outcomes) ∧
    ∀ a, a.isForced = false → ((c.act a).breaker.state ≠ .closed ↔
      ∃ k o, c.report? a = some (k, o) ∧ h.issued ≤ k ∧
        (holding config.slidingWindowSize (h.outcomes ++ [o])).Trips config) := by
  obtain ⟨positive,needed⟩ := CircuitConfig.of_validate valid
  have agrees := (History.agrees_start name clock positive needed).run needed positive acts
  rw [reached,told] at agrees
  have holds := agrees.closed closed
  refine ⟨holds.window,holds.calm,fun a more opened => ?_,fun a => agrees.leaves_iff positive closed⟩
  have left := opened 0 (Nat.zero_le _)
  exact (window_run_of_ne opened).trans (agrees.window_left positive closed left)

/-- Five calls of which every other one fails, the last of them not yet reported. -/
def fiveCalls : List Act :=
  List.replicate 5 .tryAcquire ++ [.record 0 true,.record 1 false,.record 2 true,.record 3 false]

theorem window_of_history_fiveCalls :
    ((start "transfer" {} 0).run (fiveCalls ++ [.record 4 true])).breaker.state ≠ .closed ∧
    ((start "transfer" {} 0).run (fiveCalls ++ [.record 4 true,.record 1 true])).breaker.window =
      holding 10 [.failure,.success,.failure,.success,.failure] := by
  have closed : ((start "transfer" {} 0).run fiveCalls).breaker.state = .closed := by decide +kernel
  have told : (History.after {} (start "transfer" {} 0) fiveCalls).outcomes =
      [.failure,.success,.failure,.success] := by decide +kernel
  have trips : (holding 10 [.failure,.success,.failure,.success,.failure]).Trips {} := by
    unfold CircuitWindow.Trips
    decide +kernel
  obtain ⟨_,_,kept,leaves⟩ := window_of_history "transfer" 0
    (rfl : CircuitConfig.validate {} = .ok ()) fiveCalls rfl rfl closed
  have left := (leaves (.record 4 true) rfl).mpr
    ⟨4,.failure,by decide +kernel,by decide +kernel,by rw [told]; exact trips⟩
  have opened : ∀ n ≤ [Act.record 1 true].length,
      ((((start "transfer" {} 0).run fiveCalls).act (.record 4 true)).run
        ([Act.record 1 true].take n)).breaker.state ≠ .closed := by decide +kernel
  refine ⟨?_,?_⟩
  · rw [run_append]
    exact left
  · rw [run_append]
    refine (kept (.record 4 true) [.record 1 true] opened).trans ?_
    have all : (History.next (History.after {} (start "transfer" {} 0) fiveCalls)
        ((start "transfer" {} 0).run fiveCalls) (.record 4 true)).outcomes =
        [.failure,.success,.failure,.success,.failure] := by decide +kernel
    rw [all]

end Course

end VersionedLedger

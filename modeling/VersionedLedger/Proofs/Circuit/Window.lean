import Mathlib.Data.List.DropRight
import VersionedLedger.Circuit.Window

/-! What a window holds after a history of outcomes: the last of them since it was cleared, in order, and the exact
numbers of failures, of slow calls and of successes among those. -/
namespace VersionedLedger.CircuitWindow

variable {capacity : Nat} {outcomes : List CallOutcome}

/-- The window of this capacity after these outcomes, counted afresh. -/
def holding (capacity : Nat) (outcomes : List CallOutcome) : CircuitWindow where
  capacity
  outcomes := outcomes.rtake capacity
  failures := (outcomes.rtake capacity).count .failure
  slow := (outcomes.rtake capacity).count .slow

theorem rtake_eq_cons (full : capacity < outcomes.length) :
    ∃ oldest, outcomes.rtake (capacity + 1) = oldest :: outcomes.rtake capacity := by
  have bound : outcomes.length - (capacity + 1) < outcomes.length := by omega
  have next : outcomes.length - (capacity + 1) + 1 = outcomes.length - capacity := by omega
  refine ⟨outcomes[outcomes.length - (capacity + 1)],?_⟩
  unfold List.rtake
  rw [List.drop_eq_getElem_cons bound,next]

theorem rtake_eq_self (room : outcomes.length ≤ capacity) : outcomes.rtake capacity = outcomes := by
  rw [List.rtake,Nat.sub_eq_zero_of_le room,List.drop_zero]

theorem makeRoom_holding : (holding (capacity + 1) outcomes).makeRoom =
    { holding capacity outcomes with capacity := capacity + 1 } := by
  rcases Nat.lt_or_ge capacity outcomes.length with full | room
  · obtain ⟨oldest,cut⟩ := rtake_eq_cons full
    have filled : (oldest :: outcomes.rtake capacity).length = capacity + 1 := by
      rw [← cut,List.rtake,List.length_drop]
      omega
    simp only [makeRoom,holding,cut,if_pos filled]
    cases oldest <;> simp [discount]
  · have unfilled : outcomes.length ≠ capacity + 1 := by omega
    have wide : outcomes.rtake (capacity + 1) = outcomes := rtake_eq_self (Nat.le_succ_of_le room)
    simp only [makeRoom,holding,wide,rtake_eq_self room,if_neg unfilled]
    split <;> rfl

theorem record_holding (positive : 1 ≤ capacity) (o : CallOutcome) :
    (holding capacity outcomes).record o = holding capacity (outcomes ++ [o]) := by
  obtain ⟨less,rfl⟩ := Nat.exists_eq_add_of_le' positive
  unfold record
  rw [makeRoom_holding]
  cases o <;> simp [count,holding,List.rtake_concat_succ]

theorem holding_nil (capacity : Nat) : holding capacity [] = { capacity } := by
  simp [holding,List.rtake_nil]

theorem clear_eq_holding (w : CircuitWindow) : w.clear = holding w.capacity [] := (holding_nil _).symm

@[simp] theorem capacity_record (w : CircuitWindow) (o : CallOutcome) :
    (w.record o).capacity = w.capacity := by
  have discounted (w : CircuitWindow) (o : CallOutcome) : (w.discount o).capacity = w.capacity := by
    cases o <;> rfl
  have counted (w : CircuitWindow) (o : CallOutcome) : (w.count o).capacity = w.capacity := by
    cases o <;> rfl
  unfold record makeRoom
  dsimp only
  rw [counted]
  split
  · split
    · exact discounted _ _
    · rfl
  · rfl

inductive Input
  | record (outcome : CallOutcome)
  | clear

def Input.outcome? : Input → Option CallOutcome
  | .record o => some o
  | .clear => none

def feed (w : CircuitWindow) : Input → CircuitWindow
  | .record o => w.record o
  | .clear => w.clear

def fed (capacity : Nat) (inputs : List Input) : CircuitWindow := inputs.foldl feed (ofCapacity capacity)

/-- The outcomes that no clearing follows, oldest first. -/
def sinceClear (inputs : List Input) : List CallOutcome :=
  (inputs.rtakeWhile (·.outcome?.isSome)).filterMap Input.outcome?

/-- No subtraction falls below zero, neither when the oldest outcome is pushed out nor when successes are counted. -/
structure Exact (w : CircuitWindow) : Prop where
  failure : w.outcomes.head? = some .failure → 1 ≤ w.failures
  slow : w.outcomes.head? = some .slow → 1 ≤ w.slow
  successes : w.failures + w.slow ≤ w.length

theorem sinceClear_record (inputs : List Input) (o : CallOutcome) :
    sinceClear (inputs ++ [.record o]) = sinceClear inputs ++ [o] := by
  unfold sinceClear
  rw [List.rtakeWhile_concat_pos _ _ _ rfl,List.filterMap_append]
  rfl

theorem sinceClear_clear (inputs : List Input) : sinceClear (inputs ++ [.clear]) = [] := by
  unfold sinceClear
  rw [List.rtakeWhile_concat_neg _ _ _ (by simp [Input.outcome?])]
  rfl

theorem fed_eq_holding (capacity : Nat) (inputs : List Input) :
    fed capacity inputs = holding (max capacity 1) (sinceClear inputs) := by
  -- from the end, where a clearing makes all that stands before it irrelevant
  induction inputs using List.reverseRecOn with
  | nil => exact (holding_nil _).symm
  | append_singleton inputs input ih =>
    have last : fed capacity (inputs ++ [input]) = (fed capacity inputs).feed input := List.foldl_concat ..
    rw [last,ih]
    cases input with
    | record o =>
      rw [sinceClear_record]
      exact record_holding (Nat.le_max_right _ _) o
    | clear =>
      rw [sinceClear_clear]
      exact clear_eq_holding _

theorem count_outcomes (outcomes : List CallOutcome) :
    outcomes.count .failure + outcomes.count .slow + outcomes.count .success = outcomes.length := by
  induction outcomes with
  | nil => rfl
  | cons o rest ih =>
    cases o <;> simp <;> omega

theorem successes_holding : (holding capacity outcomes).successes = (outcomes.rtake capacity).count .success := by
  have whole := count_outcomes (outcomes.rtake capacity)
  simp only [successes,length,holding]
  omega

theorem exact_holding : (holding capacity outcomes).Exact := by
  refine ⟨fun oldest => ?_,fun oldest => ?_,?_⟩
  · exact List.one_le_count_iff.mpr (List.mem_of_mem_head? oldest)
  · exact List.one_le_count_iff.mpr (List.mem_of_mem_head? oldest)
  · have whole := count_outcomes (outcomes.rtake capacity)
    simp only [length,holding]
    omega

/-- Whatever a window has been given, it holds the last outcomes since it was cleared, as many as its capacity allows;
its counts are those of a recount, and none of them ever falls below zero. -/
theorem fed_recounts (capacity : Nat) (inputs : List Input) :
    (fed capacity inputs).capacity = max capacity 1 ∧
    (fed capacity inputs).outcomes = (sinceClear inputs).rtake (max capacity 1) ∧
    (fed capacity inputs).failures = (fed capacity inputs).outcomes.count .failure ∧
    (fed capacity inputs).slow = (fed capacity inputs).outcomes.count .slow ∧
    (fed capacity inputs).successes = (fed capacity inputs).outcomes.count .success ∧
    (fed capacity inputs).Exact := by
  rw [fed_eq_holding]
  exact ⟨rfl,rfl,rfl,rfl,successes_holding,exact_holding⟩

/-- A window of no capacity keeps one outcome. -/
example : fed 0 [.record .failure, .clear, .record .failure, .record .slow] =
    { capacity := 1, outcomes := [.slow], slow := 1 } := by decide

end VersionedLedger.CircuitWindow

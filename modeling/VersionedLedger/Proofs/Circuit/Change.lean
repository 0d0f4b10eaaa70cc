import VersionedLedger.Proofs.Circuit.Course

/-! When a breaker changes its state, and which permits that leaves behind. To be forced or reset counts as a
change, be it to the state that the breaker is in, for each of them starts a new generation: the permits of a
generation are those issued since the last change. -/
namespace VersionedLedger

open Breaker

namespace Breaker

/-- The state and the generation stay as they are, or both are new. -/
def Steps (b b' : Breaker) : Prop :=
  b'.state = b.state ∧ b'.generation = b.generation ∨
    b'.state ≠ b.state ∧ b'.generation = b.generation + 1

theorem Admits.state_eq {b b' : Breaker} {now : Time} {answer : Except Error Permit}
    (admits : b.Admits now answer b') : b'.state = b.state ∧ b'.generation = b.generation := by
  cases admits <;> exact ⟨rfl,rfl⟩

theorem steps_tryAcquire (b : Breaker) (now : Time) : b.Steps (b.tryAcquire now).2.1 := by
  have kept := (b.tryAcquire_admits now).state_eq
  rcases b.looked_cases now with same | ⟨opened,moved⟩
  · rw [same] at kept
    exact .inl kept
  · refine .inr ⟨?_,kept.2.trans moved.generation⟩
    rw [kept.1,moved.state,opened]
    exact CircuitState.noConfusion

theorem steps_absorb (b : Breaker) (o : CallOutcome) (now : Time) : b.Steps (b.absorb o now).1 := by
  have absorbs := b.absorb_absorbs o now
  generalize (b.absorb o now).1 = b' at absorbs
  cases absorbs with
  | counted | succeeded | ignored => exact .inl ⟨rfl,rfl⟩
  | tripped closed => exact .inr ⟨by simp [transition,closed],rfl⟩
  | reopened halfOpen | recovered halfOpen => exact .inr ⟨by simp [transition,halfOpen],rfl⟩

end Breaker

namespace Course

variable {c : Course} {a : Act} {old : Nat}

def Changes (c : Course) (a : Act) : Prop :=
  (c.act a).breaker.state ≠ c.breaker.state ∨ a.isForced = true

instance (c : Course) (a : Act) : Decidable (c.Changes a) := inferInstanceAs (Decidable (_ ∨ _))

/-- The breaker comes to this state, or comes to it anew. -/
def Enters (c : Course) (target : CircuitState) (a : Act) : Prop :=
  (c.act a).breaker.state = target ∧ c.Changes a

instance (c : Course) (target : CircuitState) (a : Act) : Decidable (c.Enters target a) :=
  inferInstanceAs (Decidable (_ ∧ _))

theorem config_act (c : Course) (a : Act) : (c.act a).breaker.config = c.breaker.config :=
  (c.act_turn a).config_eq

theorem config_run (c : Course) (acts : List Act) : (c.run acts).breaker.config = c.breaker.config := by
  induction acts generalizing c with
  | nil => rfl
  | cons a acts ih => exact (ih (c.act a)).trans (c.config_act a)

theorem act_record_cases (c : Course) (k : Nat) (failed : Bool) :
    (∃ permit, c.issued[k]? = some permit ∧ permit.generation = c.breaker.generation ∧
      c.act (.record k failed) =
        { c with breaker := (c.breaker.absorb (c.breaker.outcome permit failed c.clock) c.clock).1 }) ∨
    (∀ permit, c.issued[k]? = some permit → permit.generation ≠ c.breaker.generation) ∧
      c.act (.record k failed) = c := by
  unfold act
  dsimp only
  cases here : c.issued[k]? with
  | none => exact .inr ⟨by simp,rfl⟩
  | some permit =>
    by_cases own : permit.generation = c.breaker.generation
    · refine .inl ⟨permit,rfl,own,?_⟩
      simp only [record_eq,if_pos own]
    · refine .inr ⟨fun other same => Option.some.inj same ▸ own,?_⟩
      simp only [record_eq,if_neg own]

theorem steps_act (unforced : a.isForced = false) : c.breaker.Steps (c.act a).breaker := by
  cases a with
  | tryAcquire => exact c.breaker.steps_tryAcquire c.clock
  | record k failed =>
    rcases c.act_record_cases k failed with ⟨permit,_,_,absorbed⟩ | ⟨_,same⟩
    · rw [absorbed]
      exact c.breaker.steps_absorb _ c.clock
    · rw [same]
      exact .inl ⟨rfl,rfl⟩
  | force | reset => cases unforced
  | elapse d => exact .inl ⟨rfl,rfl⟩

theorem generation_of_changes (changes : c.Changes a) :
    (c.act a).breaker.generation = c.breaker.generation + 1 := by
  cases forced : a.isForced with
  | true =>
    cases a with
    | force | reset => rfl
    | _ => cases forced
  | false =>
    have changed : (c.act a).breaker.state ≠ c.breaker.state := changes.resolve_right (by simp [forced])
    rcases steps_act forced with ⟨same,_⟩ | ⟨_,next⟩
    · exact absurd same changed
    · exact next

theorem kept_of_not_changes (stays : ¬ c.Changes a) : (c.act a).breaker.state = c.breaker.state ∧
    (c.act a).breaker.generation = c.breaker.generation ∧ a.isForced = false := by
  have same : (c.act a).breaker.state = c.breaker.state := Decidable.not_not.mp fun other => stays (.inl other)
  have unforced : a.isForced = false := Bool.eq_false_iff.mpr fun forced => stays (.inr forced)
  rcases steps_act unforced with kept | moved
  · exact ⟨same,kept.2,unforced⟩
  · exact absurd same moved.1

/-- The number of permits that had been issued before the last change. -/
def outdated (c : Course) (old : Nat) (a : Act) : Nat := if c.Changes a then c.issued.length else old

/-- The first `old` permits are of earlier generations, and all others of the current one. -/
structure Dated (old : Nat) (c : Course) : Prop where
  own : ∀ k permit, c.issued[k]? = some permit → (permit.generation = c.breaker.generation ↔ old ≤ k)
  past : ∀ permit ∈ c.issued, permit.generation ≤ c.breaker.generation
  issued : old ≤ c.issued.length

theorem dated_start (name : String) (config : CircuitConfig) (clock : Time) :
    Dated 0 (start name config clock) := by
  refine ⟨fun k permit here => ?_,fun permit member => ?_,Nat.le_refl _⟩
  · cases here
  · cases member

theorem Dated.act (dated : Dated old c) (a : Act) : Dated (c.outdated old a) (c.act a) := by
  have turn := c.act_turn a
  obtain ⟨more,issued,fresh⟩ := turn.exists_issued
  have before : c.outdated old a ≤ c.issued.length := by
    unfold outdated
    split
    · exact Nat.le_refl _
    · exact dated.issued
  refine ⟨fun k permit here => ?_,fun permit member => ?_,?_⟩
  · rw [issued] at here
    rcases Nat.lt_or_ge k c.issued.length with early | late
    · rw [List.getElem?_append_left early] at here
      by_cases changes : c.Changes a
      · have past := dated.past permit (List.mem_of_getElem? here)
        have next := generation_of_changes changes
        have bound : c.outdated old a = c.issued.length := if_pos changes
        omega
      · rw [(kept_of_not_changes changes).2.1,outdated,if_neg changes]
        exact dated.own k permit here
    · rw [List.getElem?_append_right late] at here
      exact iff_of_true (fresh permit (List.mem_of_getElem? here)) (Nat.le_trans before late)
  · rw [issued] at member
    rcases List.mem_append.mp member with early | late
    · exact Nat.le_trans (dated.past permit early) turn.generation_le
    · exact Nat.le_of_eq (fresh permit late)
  · rw [issued,List.length_append]
    exact Nat.le_add_right_of_le before

theorem Dated.exists_run (dated : Dated old c) (acts : List Act) : ∃ old, Dated old (c.run acts) := by
  induction acts generalizing c old with
  | nil => exact ⟨old,dated⟩
  | cons a acts ih => exact ih (dated.act a)

theorem Dated.of_changes (dated : Dated old c) (changes : c.Changes a) :
    Dated c.issued.length (c.act a) := by
  have next := dated.act a
  rwa [outdated,if_pos changes] at next

theorem Dated.of_not_changes (dated : Dated old c) (stays : ¬ c.Changes a) : Dated old (c.act a) := by
  have next := dated.act a
  rwa [outdated,if_neg stays] at next

theorem Dated.act_record (dated : Dated old c) {k : Nat} (stale : k < old) (failed : Bool) :
    c.act (.record k failed) = c := by
  rcases c.act_record_cases k failed with ⟨permit,here,own,_⟩ | ⟨_,same⟩
  · have fresh := (dated.own k permit here).mp own
    omega
  · exact same

theorem act_record_of_opened (opened : c.breaker.state = .opened) (k : Nat) (failed : Bool) :
    c.act (.record k failed) = c := by
  rcases c.act_record_cases k failed with ⟨permit,_,_,absorbed⟩ | ⟨_,same⟩
  · rw [absorbed]
    unfold absorb
    rw [opened]
  · exact same

end Course

end VersionedLedger

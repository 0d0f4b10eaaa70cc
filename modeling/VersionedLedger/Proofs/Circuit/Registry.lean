import VersionedLedger.Circuit.Registry
import VersionedLedger.Proofs.Text.ByteOrder

/-! Breakers by name. A handle stands for one breaker, under one name and one configuration, for good; what is done
to it shows under no other name. -/
namespace VersionedLedger

open Text

namespace Breaker

inductive Operation
  | acquire (now : Time)
  | record (permit : Permit) (failed : Bool) (now : Time)
  | force (target : CircuitState) (now : Time)
  | reset (now : Time)

def operate (b : Breaker) : Operation → Breaker
  | .acquire now => (b.tryAcquire now).2.1
  | .record permit failed now => (b.record permit failed now).1
  | .force target now => (b.force target now).1
  | .reset now => (b.reset now).1

def label (b : Breaker) : String × CircuitConfig := (b.name, b.config)

variable {b : Breaker} {now : Time}

@[simp] theorem label_transition (target : CircuitState) : (b.transition target now).1.label = b.label := rfl

@[simp] theorem label_admitCall : (b.admitCall now).2.1.label = b.label := by
  unfold admitCall
  dsimp only
  split
  · rfl
  · split <;> rfl
  · rfl

@[simp] theorem label_tryAcquire : (b.tryAcquire now).2.1.label = b.label := by
  unfold tryAcquire
  split
  · exact label_admitCall.trans (label_transition _)
  · exact label_admitCall

@[simp] theorem label_absorb (o : CallOutcome) : (b.absorb o now).1.label = b.label := by
  unfold absorb
  split
  · dsimp only
    split <;> rfl
  · split
    · rfl
    · dsimp only
      split <;> rfl
  · rfl

@[simp] theorem label_record (permit : Permit) (failed : Bool) : (b.record permit failed now).1.label = b.label := by
  unfold record
  dsimp only
  split
  · exact label_absorb _
  · rfl

@[simp] theorem label_operate (o : Operation) : (b.operate o).label = b.label := by
  cases o with
  | acquire => exact label_tryAcquire
  | record => exact label_record _ _
  | force | reset => rfl

end Breaker

namespace CircuitRegistry

variable {r : CircuitRegistry} {name other : String} {config : CircuitConfig} {h : CircuitHandle} {b : Breaker}

/-- Every name that is registered stands for a breaker of this name. -/
def Sound (r : CircuitRegistry) : Prop :=
  ∀ name h, r.find? name = some h → ∃ b, r.breakers[h]? = some b ∧ b.name = name

theorem Sound.lt_length (sound : r.Sound) (here : r.find? name = some h) : h < r.breakers.length := by
  obtain ⟨b,found,_⟩ := sound name h here
  exact (List.getElem?_eq_some_iff.mp found).1

theorem Sound.name_breaker (sound : r.Sound) (here : r.find? name = some h) : (r.breaker h).name = name := by
  obtain ⟨b,found,named⟩ := sound name h here
  rw [breaker,found]
  exact named

theorem sound_empty (defaults : CircuitConfig) (observed : Bool) : ({ defaults, observed } : CircuitRegistry).Sound := by
  intro name h here
  cases here

@[simp] theorem find?_set : (r.set h b).find? name = r.find? name := rfl

@[simp] theorem length_set : (r.set h b).breakers.length = r.breakers.length := List.length_set

theorem breaker_set_self (inside : h < r.breakers.length) : (r.set h b).breaker h = b := by
  simp [breaker,set,inside]

theorem breaker_set_of_ne {k : CircuitHandle} (apart : k ≠ h) : (r.set h b).breaker k = r.breaker k := by
  simp [breaker,set,List.getElem?_set_ne apart.symm]

theorem get?_set_of_ne (apart : r.find? name ≠ some h) : (r.set h b).get? name = r.get? name := by
  unfold get?
  rw [find?_set]
  cases here : r.find? name with
  | none => rfl
  | some k => exact congrArg some (breaker_set_of_ne fun same => apart (same ▸ here))

theorem find?_remove : (r.remove name).2.find? other = if other = name then none else r.find? other := by
  unfold remove find?
  dsimp only
  rw [Std.TreeMap.getElem?_erase]
  by_cases same : other = name
  · simp [same]
  · rw [if_neg same,if_neg (by simpa using Ne.symm same)]

theorem insertIfAbsent_of_present (here : r.find? name = some h) : r.insertIfAbsent name config = ((h, false), r) := by
  rw [insertIfAbsent,here]

theorem insertIfAbsent_of_absent (absent : r.find? name = none) : r.insertIfAbsent name config =
    ((r.breakers.length, true), { r with
      names := r.names.insert name r.breakers.length
      breakers := r.breakers ++ [.create name config] }) := by
  rw [insertIfAbsent,absent]

/-- The first look saves the insertion, and changes nothing else. -/
theorem breakerWith_eq : r.breakerWith name config = r.insertIfAbsent name config := by
  unfold breakerWith
  split
  · next here => rw [insertIfAbsent_of_present here]
  · rfl

theorem find?_insertIfAbsent : (r.insertIfAbsent name config).2.find? other =
    if other = name then some (r.insertIfAbsent name config).1.1 else r.find? other := by
  cases here : r.find? name with
  | some h =>
    rw [insertIfAbsent_of_present here]
    split
    · next same => exact same ▸ here
    · rfl
  | none =>
    rw [insertIfAbsent_of_absent here]
    unfold find?
    dsimp only
    rw [Std.TreeMap.getElem?_insert]
    by_cases same : other = name
    · simp [same]
    · rw [if_neg same,if_neg (by simpa using Ne.symm same)]

theorem Sound.insertIfAbsent (sound : r.Sound) (name : String) (config : CircuitConfig) :
    (r.insertIfAbsent name config).2.Sound := by
  intro other h here
  rw [find?_insertIfAbsent] at here
  cases present : r.find? name with
  | some k =>
    rw [insertIfAbsent_of_present present] at here ⊢
    split at here
    · next same =>
      cases here
      exact sound other k (same ▸ present)
    · exact sound other h here
  | none =>
    rw [insertIfAbsent_of_absent present] at here ⊢
    dsimp only at here ⊢
    split at here
    · next same =>
      cases here
      exact ⟨.create name config,List.getElem?_concat_length,same.symm⟩
    · obtain ⟨b,found,named⟩ := sound other h here
      exact ⟨b,(List.getElem?_append_left (List.getElem?_eq_some_iff.mp found).1).trans found,named⟩

theorem Sound.remove (sound : r.Sound) (name : String) : (r.remove name).2.Sound := by
  intro other h here
  rw [find?_remove] at here
  split at here
  · cases here
  · exact sound other h here

theorem Sound.set (sound : r.Sound) (label : b.label = (r.breaker h).label) : (r.set h b).Sound := by
  intro name k here
  obtain ⟨found,present,named⟩ := sound name k here
  by_cases same : k = h
  · subst same
    have inside := (List.getElem?_eq_some_iff.mp present).1
    refine ⟨b,List.getElem?_set_self inside,(congrArg Prod.fst label).trans ?_⟩
    rw [breaker,present]
    exact named
  · exact ⟨found,(List.getElem?_set_ne (Ne.symm same)).trans present,named⟩

/-- The names are in ascending order of their bytes, each of them once; so are the metrics, with one entry for each
name. Both come out the same in whatever order the entries of the table are gone through. -/
theorem Sound.listed (sound : r.Sound) :
    (∀ name, name ∈ r.sortedNames ↔ (r.get? name).isSome) ∧
    r.sortedNames.Pairwise (fun a b => bytes a < bytes b) ∧
    r.allMetrics.map CircuitMetrics.name = r.sortedNames ∧
    (∀ name b, r.get? name = some b → b.metrics ∈ r.allMetrics) ∧
    ∀ entries : List (String × CircuitHandle), entries.Perm r.names.toList →
      (entries.map Prod.fst).mergeSort (fun a b => decide (bytes a ≤ bytes b)) = r.sortedNames ∧
      (entries.map fun e => (r.breaker e.2).metrics).mergeSort
        (fun a b => decide (bytes a.name ≤ bytes b.name)) = r.allMetrics := by
  have ordered : r.sortedNames.Pairwise (· < ·) := by
    have keys := r.names.ordered_keys
    exact keys.imp fun less => compareOfLessAndEq_eq_lt.mp less
  have keyed {name : String} {h : CircuitHandle} (member : (name, h) ∈ r.names.toList) : r.find? name = some h :=
    Std.TreeMap.mem_toList_iff_getElem?_eq_some.mp member
  have all : r.allMetrics = r.names.toList.map fun e => (r.breaker e.2).metrics := by
    unfold allMetrics sortedNames
    rw [← Std.TreeMap.map_fst_toList_eq_keys,List.filterMap_map,← List.filterMap_eq_map]
    refine List.filterMap_congr fun e member => ?_
    simp [get?,keyed member]
  have named : r.allMetrics.map CircuitMetrics.name = r.sortedNames := by
    rw [all,List.map_map,sortedNames,← Std.TreeMap.map_fst_toList_eq_keys]
    exact List.map_congr_left fun e member => sound.name_breaker (keyed member)
  refine ⟨fun name => ?_,ordered.imp bytes_lt.mpr,named,fun name b here => ?_,fun entries perm => ⟨?_,?_⟩⟩
  · unfold sortedNames get? find?
    simp [Std.TreeMap.mem_keys]
  · refine List.mem_filterMap.mpr ⟨name,?_,by rw [here]; rfl⟩
    unfold get? find? at here
    obtain ⟨h,found,_⟩ := Option.map_eq_some_iff.mp here
    exact Std.TreeMap.mem_keys.mpr (Std.TreeMap.mem_iff_isSome_getElem?.mpr (by rw [found]; rfl))
  · have names := perm.map Prod.fst
    rw [Std.TreeMap.map_fst_toList_eq_keys] at names
    exact mergeSort_eq_of_perm id names ordered
  · have metrics := perm.map fun e => (r.breaker e.2).metrics
    rw [← all] at metrics
    refine mergeSort_eq_of_perm CircuitMetrics.name metrics (List.pairwise_map.mp ?_)
    rw [named]
    exact ordered

end CircuitRegistry

end VersionedLedger

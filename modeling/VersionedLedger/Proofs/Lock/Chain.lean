import Mathlib.Data.Finset.Card
import Mathlib.Data.Finset.Range
import Mathlib.Data.Nat.Find
import Mathlib.Logic.Relation
import VersionedLedger.Lock.Table

/-! Chains of waiting owners. Every owner waits for at most one other, so a chain is followed one
owner after the other; among as many owners as there are waits one repeats, which is why the bounded
walk misses no cycle. -/
namespace VersionedLedger.LockTable

variable {edges : Std.TreeMap TxnId TxnId} {a b c : TxnId}

/-- The owner that `n` waits lead to. -/
def follow (edges : Std.TreeMap TxnId TxnId) : Nat → TxnId → Option TxnId
  | 0, a => some a
  | n + 1, a => (edges[a]?).bind (follow edges n)

theorem follow_add (m n : Nat) :
    follow edges (m + n) a = (follow edges m a).bind (follow edges n) := by
  induction m generalizing a with
  | zero => rw [Nat.zero_add]; rfl
  | succ m ih =>
    rw [Nat.succ_add]
    cases waits : edges[a]? with
    | none => simp [follow,waits]
    | some next => simpa [follow,waits] using ih

theorem exists_edge_of_follow {n : Nat} (reached : follow edges (n + 1) a = some b) :
    ∃ next, edges[a]? = some next ∧ follow edges n next = some b :=
  Option.bind_eq_some_iff.mp reached

theorem Waits.trans (first : Waits edges a b) (second : Waits edges b c) : Waits edges a c := by
  induction first with
  | edge waits => exact .step waits second
  | step waits _ ih => exact .step waits (ih second)

theorem waits_iff_follow : Waits edges a b ↔ ∃ n, follow edges (n + 1) a = some b := by
  constructor
  · intro chain
    induction chain with
    | edge waits => exact ⟨0,Option.bind_eq_some_iff.mpr ⟨_,waits,rfl⟩⟩
    | step waits _ ih =>
      obtain ⟨n,reached⟩ := ih
      exact ⟨n + 1,Option.bind_eq_some_iff.mpr ⟨_,waits,reached⟩⟩
  · intro found
    obtain ⟨n,reached⟩ := found
    induction n generalizing a with
    | zero =>
      obtain ⟨next,waits,same⟩ := exists_edge_of_follow reached
      cases Option.some.inj same
      exact .edge waits
    | succ n ih =>
      obtain ⟨next,waits,rest⟩ := exists_edge_of_follow reached
      exact .step waits (ih rest)

/-- A chain longer than the number of waits comes back to an owner it has passed. -/
theorem exists_repeat
    (long : ∀ i ≤ edges.size, ∃ x y, follow edges i a = some x ∧ edges[x]? = some y) :
    ∃ i j, i < j ∧ j ≤ edges.size ∧ follow edges i a = follow edges j a := by
  have size : edges.keys.toFinset.card < (Finset.range (edges.size + 1)).card := by
    have keys := edges.keys.toFinset_card_le
    rw [Std.TreeMap.length_keys] at keys
    simpa using Nat.lt_succ_of_le keys
  have visited : Set.MapsTo (fun i => (follow edges i a).getD 0)
      (Finset.range (edges.size + 1) : Set Nat) (edges.keys.toFinset : Set TxnId) := by
    intro i inside
    obtain ⟨x,y,reached,waits⟩ := long i (by simpa [Nat.lt_succ_iff] using inside)
    have key : x ∈ edges := Std.TreeMap.mem_iff_isSome_getElem?.mpr (by rw [waits]; rfl)
    simpa [reached] using key
  obtain ⟨i,first,j,second,differ,same⟩ :=
    Finset.exists_ne_map_eq_of_card_lt_of_maps_to size visited
  simp only [Finset.mem_range,Nat.lt_succ_iff] at first second
  have equal : follow edges i a = follow edges j a := by
    obtain ⟨x,_,left,_⟩ := long i first
    obtain ⟨y,_,right,_⟩ := long j second
    simp only [left,right,Option.getD_some] at same
    rw [left,right,same]
  rcases Nat.lt_or_gt_of_ne differ with below | above
  · exact ⟨i,j,below,second,equal⟩
  · exact ⟨j,i,above,first,equal.symm⟩

/-- Owners each of which waits for another of them include a cycle. -/
theorem exists_cycle {blocked : Set TxnId} (inhabited : blocked.Nonempty)
    (closed : ∀ x ∈ blocked, ∃ y ∈ blocked, edges[x]? = some y) : ∃ x, Waits edges x x := by
  obtain ⟨a,start⟩ := inhabited
  have stays : ∀ i, ∃ x ∈ blocked, follow edges i a = some x := by
    intro i
    induction i with
    | zero => exact ⟨a,start,rfl⟩
    | succ i ih =>
      obtain ⟨x,member,reached⟩ := ih
      obtain ⟨y,next,waits⟩ := closed x member
      exact ⟨y,next,by rw [follow_add,reached]; simp [follow,waits]⟩
  have long : ∀ i ≤ edges.size, ∃ x y, follow edges i a = some x ∧ edges[x]? = some y := by
    intro i _
    obtain ⟨x,member,reached⟩ := stays i
    obtain ⟨y,_,waits⟩ := closed x member
    exact ⟨x,y,reached,waits⟩
  obtain ⟨i,j,before,_,same⟩ := exists_repeat long
  obtain ⟨x,_,reached⟩ := stays i
  refine ⟨x,waits_iff_follow.mpr ⟨j - i - 1,?_⟩⟩
  have later : follow edges (i + (j - i - 1 + 1)) a = some x := by
    rw [show i + (j - i - 1 + 1) = j by omega,← same,reached]
  simpa [follow_add i,reached] using later

theorem reaches_iff_follow {bound : Nat} :
    reaches edges b bound a = true ↔ ∃ n < bound, follow edges n a = some b := by
  induction bound generalizing a with
  | zero => simp [reaches]
  | succ bound ih =>
    unfold reaches
    split
    · next same => exact ⟨fun _ => ⟨0,Nat.succ_pos _,congrArg some same⟩,fun _ => rfl⟩
    · next differ =>
      constructor
      · intro found
        split at found
        · next next waits =>
          obtain ⟨n,short,reached⟩ := ih.mp found
          exact ⟨n + 1,Nat.succ_lt_succ short,Option.bind_eq_some_iff.mpr ⟨next,waits,reached⟩⟩
        · cases found
      · intro found
        obtain ⟨n,short,reached⟩ := found
        cases n with
        | zero => exact absurd (Option.some.inj reached) differ
        | succ n =>
          obtain ⟨next,waits,rest⟩ := exists_edge_of_follow reached
          rw [waits]
          exact ih.mpr ⟨n,Nat.lt_of_succ_lt_succ short,rest⟩

theorem exists_short_return (cycle : Waits edges a a) :
    ∃ n < edges.size, follow edges (n + 1) a = some a := by
  classical
  have returns := waits_iff_follow.mp cycle
  obtain ⟨n,first⟩ : ∃ n, Nat.find returns = n := ⟨_,rfl⟩
  have reached : follow edges (n + 1) a = some a := first ▸ Nat.find_spec returns
  refine ⟨n,?_,reached⟩
  by_contra long
  have passes : ∀ i ≤ edges.size, ∃ x y, follow edges i a = some x ∧ edges[x]? = some y := by
    intro i inside
    rw [show n + 1 = i + (n - i + 1) by omega,follow_add] at reached
    obtain ⟨x,at_i,rest⟩ := Option.bind_eq_some_iff.mp reached
    obtain ⟨y,waits,_⟩ := exists_edge_of_follow rest
    exact ⟨x,y,at_i,waits⟩
  obtain ⟨i,j,before,inside,same⟩ := exists_repeat passes
  have earlier : follow edges (i + (n + 1 - j)) a = some a := by
    rw [follow_add,same,← follow_add,show j + (n + 1 - j) = n + 1 by omega,reached]
  have minimal := Nat.find_min returns (m := i + (n - j)) (by omega)
  rw [show i + (n + 1 - j) = i + (n - j) + 1 by omega] at earlier
  exact minimal earlier

def closesWithin (t : LockTable) (waiter : TxnId) (bound : Nat) : Bool :=
  match t.waitsFor[waiter]? with
  | some holder => reaches t.waitsFor waiter bound holder
  | none => false

variable {t : LockTable} {waiter : TxnId} {bound : Nat}

theorem closesWithin_iff_follow : t.closesWithin waiter bound = true ↔
    ∃ n, 1 ≤ n ∧ n ≤ bound ∧ follow t.waitsFor n waiter = some waiter := by
  unfold closesWithin
  constructor
  · intro found
    split at found
    · next holder waits =>
      obtain ⟨n,short,reached⟩ := reaches_iff_follow.mp found
      exact ⟨n + 1,Nat.le_add_left 1 n,short,Option.bind_eq_some_iff.mpr ⟨holder,waits,reached⟩⟩
    · cases found
  · rintro ⟨n,positive,short,reached⟩
    obtain ⟨n,rfl⟩ := Nat.exists_eq_add_of_le' positive
    obtain ⟨holder,waits,rest⟩ := exists_edge_of_follow reached
    rw [waits]
    exact reaches_iff_follow.mpr ⟨n,short,rest⟩

theorem waits_of_follow {n : Nat} (positive : 1 ≤ n) (reached : follow edges n a = some b) : Waits edges a b := by
  obtain ⟨n,rfl⟩ := Nat.exists_eq_add_of_le' positive
  exact waits_iff_follow.mpr ⟨n,reached⟩

theorem closesWithin_iff_waits (enough : t.waitsFor.size ≤ bound) :
    t.closesWithin waiter bound = true ↔ Waits t.waitsFor waiter waiter := by
  rw [closesWithin_iff_follow]
  constructor
  · rintro ⟨n,positive,_,reached⟩
    exact waits_of_follow positive reached
  · intro cycle
    obtain ⟨n,short,reached⟩ := exists_short_return cycle
    exact ⟨n + 1,Nat.le_add_left 1 n,Nat.le_trans short enough,reached⟩

theorem closesCycle_eq (t : LockTable) (waiter : TxnId) :
    t.closesCycle waiter = t.closesWithin waiter (t.waitsFor.size + 1) := rfl

theorem closesCycle_iff_waits {t : LockTable} {waiter : TxnId} :
    t.closesCycle waiter = true ↔ Waits t.waitsFor waiter waiter := by
  rw [closesCycle_eq]
  exact closesWithin_iff_waits (Nat.le_succ _)

/-- A request closes a cycle exactly if some number of waits leads from the waiter back to it, whatever other cycles there
are. A walk finds the returns that take no more steps than it makes, and no walk finds more than one that makes as many
steps as there are waits. -/
theorem closesCycle_exact (t : LockTable) (waiter : TxnId) :
    (t.closesCycle waiter = true ↔ ∃ n, 1 ≤ n ∧ follow t.waitsFor n waiter = some waiter) ∧
    (∀ bound, t.closesWithin waiter bound = true ↔
      ∃ n, 1 ≤ n ∧ n ≤ bound ∧ follow t.waitsFor n waiter = some waiter) ∧
    ∀ extra, t.closesWithin waiter (t.waitsFor.size + extra) = t.closesCycle waiter := by
  refine ⟨⟨fun closes => ?_,fun returns => ?_⟩,fun bound => closesWithin_iff_follow,fun extra => ?_⟩
  · obtain ⟨n,positive,_,reached⟩ := closesWithin_iff_follow.mp closes
    exact ⟨n,positive,reached⟩
  · obtain ⟨n,positive,reached⟩ := returns
    exact closesCycle_iff_waits.mpr (waits_of_follow positive reached)
  · rw [Bool.eq_iff_iff,closesWithin_iff_waits (Nat.le_add_right _ extra),closesCycle_iff_waits]

example : ({ waitsFor := .ofList [(1, 2), (2, 3), (3, 2)] } : LockTable).closesCycle 1 = false := by decide

theorem Waits.of_subset {fewer : Std.TreeMap TxnId TxnId}
    (subset : ∀ x y : TxnId, fewer[x]? = some y → edges[x]? = some y) (chain : Waits fewer a b) :
    Waits edges a b := by
  induction chain with
  | edge waits => exact .edge (subset _ _ waits)
  | step waits _ ih => exact .step (subset _ _ waits) ih

theorem waits_insert {owner holder : TxnId} (chain : Waits (edges.insert owner holder) a b) :
    Waits edges a b ∨
      (a = owner ∨ Waits (edges.insert owner holder) a owner) ∧
        Waits (edges.insert owner holder) owner b := by
  induction chain with
  | @edge a b waits =>
    by_cases same : a = owner
    · exact .inr ⟨.inl same,.edge (same ▸ waits)⟩
    · rw [Std.TreeMap.getElem?_insert] at waits
      simp only [Nat.compare_eq_eq,Ne.symm same,if_false] at waits
      exact .inl (.edge waits)
  | @step a b c waits rest ih =>
    by_cases same : a = owner
    · subst same
      exact .inr ⟨.inl rfl,.step waits rest⟩
    · rcases ih with old | ⟨passes,onward⟩
      · rw [Std.TreeMap.getElem?_insert] at waits
        simp only [Nat.compare_eq_eq,Ne.symm same,if_false] at waits
        exact .inl (.step waits old)
      · refine .inr ⟨.inr ?_,onward⟩
        rcases passes with rfl | later
        · exact .edge waits
        · exact .step waits later

def Acyclic (edges : Std.TreeMap TxnId TxnId) : Prop := ∀ a, ¬ Waits edges a a

theorem Acyclic.insert {owner holder : TxnId} (acyclic : Acyclic edges)
    (open_ended : ¬ Waits (edges.insert owner holder) owner owner) :
    Acyclic (edges.insert owner holder) := by
  intro a cycle
  rcases waits_insert cycle with old | ⟨rfl | before,after⟩
  · exact acyclic a old
  · exact open_ended cycle
  · exact open_ended (after.trans before)

theorem Acyclic.erase (acyclic : Acyclic edges) (owner : TxnId) : Acyclic (edges.erase owner) := by
  intro a cycle
  refine acyclic a (cycle.of_subset ?_)
  intro x y waits
  rw [Std.TreeMap.getElem?_erase] at waits
  split at waits
  · cases waits
  · exact waits

theorem chain_of_closing {owner holder : TxnId} (other : holder ≠ owner)
    (cycle : Waits (edges.insert owner holder) owner owner) :
    Relation.TransGen (fun x y => x ≠ owner ∧ edges[x]? = some y) holder owner := by
  have old {x y : TxnId} (differ : x ≠ owner) (waits : (edges.insert owner holder)[x]? = some y) :
      edges[x]? = some y := by
    rw [Std.TreeMap.getElem?_insert] at waits
    simpa only [Nat.compare_eq_eq,Ne.symm differ,if_false] using waits
  have back {x y : TxnId} (chain : Waits (edges.insert owner holder) x y) (goal : y = owner)
      (differ : x ≠ owner) : Relation.TransGen (fun x y => x ≠ owner ∧ edges[x]? = some y) x y := by
    induction chain with
    | edge waits => exact .single ⟨differ,old differ waits⟩
    | @step x next y waits rest ih =>
      by_cases arrived : next = owner
      · subst goal arrived
        exact .single ⟨differ,old differ waits⟩
      · exact .head ⟨differ,old differ waits⟩ (ih goal arrived)
  cases cycle with
  | edge waits => exact absurd (by simpa using waits) other
  | step waits rest =>
    have first := Std.TreeMap.getElem?_insert_self.symm.trans waits
    cases Option.some.inj first
    exact back rest rfl other

end VersionedLedger.LockTable

import VersionedLedger.Proofs.Pool.Waiting

/-! What a refused lock request says about the owners. The walk that finds a cycle follows the waits as
they were entered, and a wait is not taken back when the record it is for is given back; so the cycle is
real exactly if each wait on it is still for the holder of its record. -/
namespace VersionedLedger

namespace LockManager

variable {m : LockManager} {owner : TxnId} {id : RecordId}

theorem round_request (first second : Bool) :
    (m.request owner id first).1 = (m.request owner id second).1 := by
  unfold request
  split
  · rfl
  · split
    · rfl
    · next holder _ _ =>
      dsimp only
      cases (m.table.wait owner holder).closesCycle owner <;> rfl

theorem deadlocks_request (first : Bool) :
    (m.request owner id first).2.stats.deadlocks =
      m.stats.deadlocks + if (m.request owner id true).1 = .deadlock then 1 else 0 := by
  rw [round_request true first]
  have decides := m.decides_request owner id first
  generalize (m.request owner id first).1 = r at decides
  generalize (m.request owner id first).2 = after at decides
  cases decides <;> rfl

theorem exists_cycle_of_deadlock {first : Bool} (refused : (m.request owner id first).1 = .deadlock) :
    ∃ holder, holder ≠ owner ∧ m.table.owners[id]? = some holder ∧
      LockTable.Waits (m.table.waitsFor.insert owner holder) owner owner := by
  have decides := m.decides_request owner id first
  rw [refused] at decides
  generalize (m.request owner id first).2 = after at decides
  cases decides with
  | deadlock holder taken other cycle => exact ⟨holder,other,taken,cycle⟩

theorem deadlock_of_cycle {holder : TxnId} {first : Bool} (taken : m.table.owners[id]? = some holder)
    (other : holder ≠ owner)
    (cycle : LockTable.Waits (m.table.waitsFor.insert owner holder) owner owner) :
    (m.request owner id first).1 = .deadlock := by
  have decides := m.decides_request owner id first
  generalize (m.request owner id first).1 = r at decides
  generalize (m.request owner id first).2 = after at decides
  cases decides with
  | granted free => cases free.symm.trans taken
  | held own =>
    cases own.symm.trans taken
    exact absurd rfl other
  | deadlock => rfl
  | waiting current held _ open_ended =>
    cases held.symm.trans taken
    exact absurd cycle open_ended

end LockManager

namespace Pool

variable {α : Type} {p q : Pool α} {m : Move} {owner : TxnId} {id : RecordId}

def request? (p : Pool α) : Move → Option (TxnId × RecordId)
  | .step i =>
    match p.workers[i]? with
    | some (.ready (.call (.acquire owner id _ existing) _)) =>
      if existing && !p.ledger.store.contains id then none else some (owner, id)
    | some (.blocked w _) => if w.woken then some (w.owner, w.id) else none
    | _ => none
  | .expire i =>
    match p.workers[i]? with
    | some (.blocked w _) =>
      if p.ledger.clock < w.deadline || p.table.heldByOther w.owner w.id then none
      else some (w.owner, w.id)
    | _ => none
  | .elapse _ => none

def refused? (p : Pool α) (m : Move) : Option (TxnId × RecordId) :=
  (p.request? m).filter fun (owner, id) => (p.ledger.store.locks.request owner id true).1 = .deadlock

theorem exists_round_of_request (asks : p.request? m = some (owner, id)) :
    ∃ i w lw first next, (m = .step i ∨ m = .expire i) ∧ p.workers[i]? = some w ∧
      Worker.Asks p.ledger w lw first next ∧ lw.owner = owner ∧ lw.id = id ∧
        p.move m = p.update i (lockRound p.ledger lw first next) := by
  cases m with
  | elapse d => cases asks
  | step i =>
    dsimp only [request?] at asks
    split at asks
    · next o x timeout existing next present =>
      split at asks
      · cases asks
      · next found =>
        cases asks
        refine ⟨i,_,_,true,next,.inl rfl,present,.first owner id timeout existing next ?_,rfl,rfl,?_⟩
        · intro same
          subst same
          simpa using found
        · dsimp only [move]
          unfold step
          rw [present]
          dsimp only [advance]
          rw [if_neg found]
    · next w next present =>
      split at asks
      · next woken =>
        cases asks
        refine ⟨i,_,w,false,next,.inl rfl,present,.again w next,rfl,rfl,?_⟩
        dsimp only [move]
        unfold step
        rw [present]
        dsimp only
        rw [if_pos woken]
      · cases asks
    · cases asks
  | expire i =>
    dsimp only [request?] at asks
    split at asks
    · next w next present =>
      split at asks
      · cases asks
      · next expired =>
        cases asks
        simp only [Bool.or_eq_true,decide_eq_true_eq,not_or] at expired
        refine ⟨i,_,w,false,next,.inr rfl,present,.again w next,rfl,rfl,?_⟩
        dsimp only [move]
        unfold expire
        rw [present]
        dsimp only
        rw [if_neg expired.1,if_neg expired.2]
    · cases asks

theorem locks_of_request (asks : p.request? m = some (owner, id)) :
    ∃ first, (p.move m).ledger.store.locks = (p.ledger.store.locks.request owner id first).2 := by
  obtain ⟨i,w,lw,first,next,_,_,_,rfl,rfl,moved⟩ := exists_round_of_request asks
  refine ⟨first,?_⟩
  rw [moved,lockRound_eq]
  rfl

private theorem deadlocks_advance (s : Ledger) (program : Program α)
    (idle : ∀ owner id timeout existing next, program = .call (.acquire owner id timeout existing) next →
      (existing && !s.store.contains id) = true) :
    (advance s program).2.store.locks.stats = s.store.locks.stats := by
  unfold advance
  split
  · rfl
  · next owner id timeout existing next =>
    rw [if_pos (idle owner id timeout existing next rfl)]
  · rfl
  · next c next not_acquire not_sleep =>
    refine s.lockStats_answer ?_
    cases c with
    | acquire owner id timeout existing =>
      exact (not_acquire owner id timeout existing next rfl HEq.rfl).elim
    | sleep d watched => exact (not_sleep d watched next rfl HEq.rfl).elim
    | _ => rfl

theorem deadlocks_of_no_request (idle : p.request? m = none) :
    (p.move m).ledger.store.locks.stats.deadlocks = p.ledger.store.locks.stats.deadlocks := by
  cases m with
  | elapse d => rfl
  | step i =>
    dsimp only [request?] at idle
    dsimp only [move]
    unfold step
    split
    · next program present =>
      refine congrArg LockStats.deadlocks (deadlocks_advance p.ledger program ?_)
      intro owner id timeout existing next same
      subst same
      rw [present] at idle
      simpa using idle
    · split
      · rfl
      · split <;> rfl
    · next w next present =>
      rw [present] at idle
      split
      · next woken => simp [woken] at idle
      · rfl
    · rfl
  | expire i =>
    dsimp only [request?] at idle
    dsimp only [move]
    unfold expire
    split
    · next w next present =>
      rw [present] at idle
      split
      · rfl
      · next due =>
        split
        · rfl
        · next free => simp [due,free] at idle
    · rfl

theorem deadlocks_move (p : Pool α) (m : Move) :
    (p.move m).ledger.store.locks.stats.deadlocks =
      p.ledger.store.locks.stats.deadlocks + if (p.refused? m).isSome then 1 else 0 := by
  unfold refused?
  cases asks : p.request? m with
  | none => simpa using deadlocks_of_no_request asks
  | some request =>
    obtain ⟨owner,id⟩ := request
    obtain ⟨first,locks⟩ := locks_of_request asks
    rw [locks,LockManager.deadlocks_request]
    by_cases closes : (p.ledger.store.locks.request owner id true).1 = .deadlock <;>
      simp [Option.filter,closes]

/-- A wait on the way from a holder to an owner that asks. -/
def Link (p : Pool α) (owner a b : TxnId) : Prop := a ≠ owner ∧ p.table.waitsFor[a]? = some b

theorem exists_links_of_refused (refused : p.refused? m = some (owner, id)) :
    ∃ holder, holder ≠ owner ∧ p.table.owners[id]? = some holder ∧
      Relation.TransGen (p.Link owner) holder owner := by
  obtain ⟨_,closes⟩ := Option.filter_eq_some_iff.mp refused
  obtain ⟨holder,other,taken,cycle⟩ := LockManager.exists_cycle_of_deadlock (by simpa using closes)
  exact ⟨holder,other,taken,LockTable.chain_of_closing other cycle⟩

theorem Linked.waitsOn_or_woken (linked : p.Linked) {a b : TxnId} (edge : p.table.waitsFor[a]? = some b) :
    p.WaitsOn a b ∨ ∃ w ∈ p.waits, w.owner = a ∧ w.woken = true := by
  obtain ⟨i,w,waited,named,woken | taken⟩ := linked a b edge
  · exact .inr ⟨w,mem_waits.mpr ⟨i,waited⟩,named,woken⟩
  · exact .inl ⟨w,mem_waits.mpr ⟨i,waited⟩,named,taken⟩

private theorem current_iff {holder : TxnId}
    (chain : Relation.TransGen (p.Link owner) holder owner) :
    (∀ a b, Relation.ReflTransGen (p.Link owner) holder a → p.Link owner a b → p.WaitsOn a b) ↔
      Relation.TransGen (fun a b => p.Link owner a b ∧ p.WaitsOn a b) holder owner := by
  constructor
  · intro current
    have real : ∀ c, Relation.TransGen (p.Link owner) holder c →
        Relation.TransGen (fun a b => p.Link owner a b ∧ p.WaitsOn a b) holder c := by
      intro c before
      induction before with
      | single link => exact .single ⟨link,current _ _ .refl link⟩
      | tail before link ih => exact ih.tail ⟨link,current _ _ before.to_reflTransGen link⟩
    exact real owner chain
  · intro real
    -- waits are a function, so whatever the links reach is on the real chain
    have onward : ∀ a, Relation.ReflTransGen (p.Link owner) holder a → a ≠ owner →
        ∃ b, (p.Link owner a b ∧ p.WaitsOn a b) ∧
          Relation.ReflTransGen (fun a b => p.Link owner a b ∧ p.WaitsOn a b) b owner := by
      intro a reached
      induction reached with
      | refl => exact fun _ => Relation.TransGen.head'_iff.mp real
      | tail _ link ih =>
        intro differ
        obtain ⟨c,⟨along,_⟩,rest⟩ := ih link.1
        cases Option.some.inj (along.2.symm.trans link.2)
        rcases Relation.reflTransGen_iff_eq_or_transGen.mp rest with same | further
        · exact absurd same.symm differ
        · exact Relation.TransGen.head'_iff.mp further
    intro a b reached link
    obtain ⟨c,⟨along,waits⟩,_⟩ := onward a reached link.1
    cases Option.some.inj (along.2.symm.trans link.2)
    exact waits

/-- A refused request leads from the holder of its record along waits back to the owner that asks. A wait
on this way that is not for the holder of its record belongs to a waiter that is yet to be tried again,
and the cycle that was found is real exactly if there is no such wait on it. -/
theorem refusal_follows_waits {s : Ledger} (fresh : s.store.locks.table = {})
    (programs : List (Program α)) (moves : List Move) (reached : (start s programs).play moves = p)
    (refused : p.refused? m = some (owner, id)) :
    ∃ holder, holder ≠ owner ∧ p.table.owners[id]? = some holder ∧
      Relation.TransGen (p.Link owner) holder owner ∧
      (∀ a b, p.Link owner a b → p.WaitsOn a b ∨ ∃ w ∈ p.waits, w.owner = a ∧ w.woken = true) ∧
      ((∀ a b, Relation.ReflTransGen (p.Link owner) holder a → p.Link owner a b → p.WaitsOn a b) ↔
        Relation.TransGen (fun a b => p.Link owner a b ∧ p.WaitsOn a b) holder owner) := by
  subst reached
  have linked := (linked_start fresh programs).play moves
  obtain ⟨holder,other,taken,chain⟩ := exists_links_of_refused refused
  exact ⟨holder,other,taken,chain,fun a b link => linked.waitsOn_or_woken link.2,current_iff chain⟩

/-- Owner 1 gives record 1 back and asks for record 2 before owner 2, which holds it, is tried again. -/
def outlived : Pool Unit := play
  (start {}
    [.call (.acquire 1 1 none false) fun _ => .call (.release 1 1) fun _ =>
      .call (.acquire 1 2 none false) fun _ => .done (),
     .call (.acquire 2 2 none false) fun _ => .call (.acquire 2 1 none false) fun _ => .done ()])
  [.step 0,.step 1,.step 1,.step 0]

/-- The refused owner is in no cycle: the record that the other one waits for is free. -/
theorem refusal_follows_waits_outlived : ∃ holder, holder ≠ 1 ∧
    outlived.table.owners[2]? = some holder ∧ Relation.TransGen (outlived.Link 1) holder 1 ∧
      ¬ Relation.TransGen outlived.WaitsOn holder 1 := by
  have refused : outlived.refused? (.step 0) = some (1, 2) := by decide
  have free : ∀ w ∈ outlived.waits, outlived.table.owners[w.id]? = none := by decide
  obtain ⟨holder,other,taken,chain,_⟩ := refusal_follows_waits (s := {}) rfl _ _ rfl refused
  refine ⟨holder,other,taken,chain,fun real => ?_⟩
  obtain ⟨b,⟨w,waits,_,held⟩,_⟩ := Relation.TransGen.head'_iff.mp real
  cases (free w waits).symm.trans held

theorem Settled.waits_of_chain (settled : p.Settled) {a holder : TxnId}
    (tried : ∀ w ∈ p.waits, w.woken = true → w.owner = owner)
    (chain : Relation.TransGen p.WaitsOn a owner) (other : a ≠ owner) :
    LockTable.Waits (p.table.waitsFor.insert owner holder) a owner := by
  have edge {x y : TxnId} (waits : p.WaitsOn x y) (differ : x ≠ owner) :
      (p.table.waitsFor.insert owner holder)[x]? = some y := by
    obtain ⟨w,member,rfl,taken⟩ := waits
    obtain ⟨i,waited⟩ := mem_waits.mp member
    have fresh : w.woken = false := by
      by_contra woken
      exact differ (tried w member (by simpa using woken))
    obtain ⟨current,held,edge⟩ := settled.current i w waited fresh
    cases held.symm.trans taken
    simpa [Std.TreeMap.getElem?_insert,Ne.symm differ] using edge
  induction chain using Relation.TransGen.head_induction_on with
  | single waits => exact .edge (edge waits other)
  | @head x y waits rest ih =>
    by_cases arrived : y = owner
    · exact .edge (arrived ▸ edge waits other)
    · exact .step (edge waits other) (ih arrived)

/-- Once every other waiter that was woken has been tried again, a request is refused if and only if it
closes a cycle of owners that wait for each other's records. -/
theorem refused_iff_cycle {s : Ledger} (fresh : s.store.locks.table = {})
    (programs : List (Program α)) {moves : List Move} (alone : (start s programs).OneAtATime moves)
    (reached : (start s programs).play moves = p) (asks : p.request? m = some (owner, id))
    (tried : ∀ w ∈ p.waits, w.woken = true → w.owner = owner) :
    p.refused? m = some (owner, id) ↔ ∃ holder, holder ≠ owner ∧
      p.table.owners[id]? = some holder ∧ Relation.TransGen p.WaitsOn holder owner := by
  subst reached
  have linked := (linked_start fresh programs).play moves
  have settled := (settled_start fresh programs).play alone
  constructor
  · intro refused
    obtain ⟨holder,other,taken,chain⟩ := exists_links_of_refused refused
    refine ⟨holder,other,taken,chain.lift (fun a => a) fun a b link => ?_⟩
    rcases linked.waitsOn_or_woken link.2 with waits | ⟨w,member,rfl,woken⟩
    · exact waits
    · exact absurd (tried w member woken) link.1
  · intro found
    obtain ⟨holder,other,taken,chain⟩ := found
    refine Option.filter_eq_some_iff.mpr ⟨asks,?_⟩
    simp only [decide_eq_true_eq]
    exact LockManager.deadlock_of_cycle taken other
      (.step Std.TreeMap.getElem?_insert_self (settled.waits_of_chain tried chain other))

end Pool

end VersionedLedger

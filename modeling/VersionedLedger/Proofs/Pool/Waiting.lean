import VersionedLedger.Proofs.Pool.Locks

/-! Who waits for whom while a pool runs. The waits always come from requests that still wait, and they
form no cycle if every owner is asked to do one thing at a time; only a waiter that has been woken may
wait for an owner that has given the record back. -/
namespace VersionedLedger.Pool

variable {α : Type} {p q : Pool α} {m : Move}

def waits (p : Pool α) : List LockWait := p.workers.filterMap Worker.wait?

def Waiting (p : Pool α) (a : TxnId) : Prop := ∃ w ∈ p.waits, w.owner = a

/-- A request of `a` waits for a record that `b` holds at this moment. -/
def WaitsOn (p : Pool α) (a b : TxnId) : Prop :=
  ∃ w ∈ p.waits, w.owner = a ∧ p.table.owners[w.id]? = some b

instance (p : Pool α) (a : TxnId) : Decidable (p.Waiting a) :=
  inferInstanceAs (Decidable (∃ w ∈ p.waits, w.owner = a))

instance (p : Pool α) (a b : TxnId) : Decidable (p.WaitsOn a b) :=
  inferInstanceAs (Decidable (∃ w ∈ p.waits, w.owner = a ∧ p.table.owners[w.id]? = some b))

/-- No move calls on the locks for an owner whose request waits. -/
def OneAtATime (p : Pool α) : List Move → Prop
  | [] => True
  | m :: rest => (∀ a ∈ p.caller? m, ¬ p.Waiting a) ∧ (p.move m).OneAtATime rest

instance decidableOneAtATime : (p : Pool α) → (moves : List Move) → Decidable (p.OneAtATime moves)
  | _, [] => inferInstanceAs (Decidable True)
  | p, m :: rest =>
    have := decidableOneAtATime (p.move m) rest
    inferInstanceAs (Decidable ((∀ a ∈ p.caller? m, ¬ p.Waiting a) ∧ (p.move m).OneAtATime rest))

theorem mem_waits {w : LockWait} : w ∈ p.waits ↔ ∃ i, p.wait? i = some w := by
  constructor
  · intro member
    obtain ⟨worker,inside,waits⟩ := List.mem_filterMap.mp member
    obtain ⟨i,present⟩ := List.mem_iff_getElem?.mp inside
    exact ⟨i,Option.bind_eq_some_iff.mpr ⟨worker,present,waits⟩⟩
  · intro found
    obtain ⟨i,waits⟩ := found
    obtain ⟨worker,present,waits⟩ := Option.bind_eq_some_iff.mp waits
    exact List.mem_filterMap.mpr ⟨worker,List.mem_of_getElem? present,waits⟩

theorem waiting_of_wait? {i : Nat} {w : LockWait} (waits : p.wait? i = some w) :
    p.Waiting w.owner := ⟨w,mem_waits.mpr ⟨i,waits⟩,rfl⟩

/-- Behind each wait is a request that waits, and it is woken unless the owner waited for holds the
record. -/
def Linked (p : Pool α) : Prop :=
  ∀ a b : TxnId, p.table.waitsFor[a]? = some b →
    ∃ i w, p.wait? i = some w ∧ w.owner = a ∧ (w.woken = true ∨ p.table.owners[w.id]? = some b)

/-- What holds besides if every owner does one thing at a time. -/
structure Settled (p : Pool α) : Prop where
  single : ∀ (i j : Nat) (w v : LockWait), p.wait? i = some w → p.wait? j = some v →
    w.owner = v.owner → i = j
  current : ∀ (i : Nat) (w : LockWait), p.wait? i = some w → w.woken = false →
    ∃ holder, p.table.owners[w.id]? = some holder ∧ p.table.waitsFor[w.owner]? = some holder
  acyclic : LockTable.Acyclic p.table.waitsFor

theorem Linked.move (linked : p.Linked) (m : Move) : (p.move m).Linked := by
  generalize moved : p.move m = q
  have step := p.lockMove m
  rw [moved] at step
  intro a b edge
  cases step with
  | quiet locks waits =>
    rw [table,locks] at edge ⊢
    simpa only [waits] using linked a b edge
  | frees owner calls frees waits =>
    obtain ⟨i,w,waited,named,reason⟩ := linked a b (frees.waits a b edge)
    rcases waits with ⟨kept,waits⟩ | waits
    · exact ⟨i,w,(waits i).trans waited,named,by rwa [kept]⟩
    · exact ⟨i,w.wake,by rw [waits,waited]; rfl,named,.inl rfl⟩
  | round i lw first r asks decides own others =>
    by_cases same : a = lw.owner
    · subst same
      rw [decides.edge_own] at edge
      split at edge
      · next waits =>
        exact ⟨i,_,own.trans (if_pos waits),rfl,.inr (decides.owners_taken edge)⟩
      · cases edge
    · rw [decides.edge_other same] at edge
      obtain ⟨j,w,waited,named,reason⟩ := linked a b edge
      have differ : j ≠ i := by
        intro same
        subst same
        rcases asks with ⟨idle,_⟩ | asks
        · cases idle.symm.trans waited
        · cases asks.symm.trans waited
          exact same named.symm
      exact ⟨j,w,(others j differ).trans waited,named,reason.imp_right decides.owners_taken⟩
  | giveUp i lw waited locks own others =>
    rw [table,locks,LockManager.giveUp,LockTable.stopWaiting_waitsFor] at edge
    split at edge
    · cases edge
    · next other =>
      obtain ⟨j,w,waits,named,reason⟩ := linked a b edge
      have differ : j ≠ i := by
        intro same
        subst same
        cases waited.symm.trans waits
        exact other named
      refine ⟨j,w,(others j differ).trans waits,named,?_⟩
      rwa [table,locks]

theorem Settled.other_owner (settled : p.Settled) {i j : Nat} {lw w : LockWait}
    (asks : p.wait? i = none ∧ p.caller? m = some lw.owner ∨ p.wait? i = some lw)
    (alone : ∀ a ∈ p.caller? m, ¬ p.Waiting a) (differ : j ≠ i) (waited : p.wait? j = some w) :
    w.owner ≠ lw.owner := by
  intro same
  rcases asks with ⟨_,calls⟩ | asks
  · exact alone _ calls (same ▸ waiting_of_wait? waited)
  · exact differ (settled.single j i w lw waited asks same)

theorem Settled.move (settled : p.Settled) (alone : ∀ a ∈ p.caller? m, ¬ p.Waiting a) :
    (p.move m).Settled := by
  generalize moved : p.move m = q
  have step := p.lockMove m
  rw [moved] at step
  cases step with
  | quiet locks waits =>
    refine ⟨?_,?_,by rw [table,locks]; exact settled.acyclic⟩
    · simpa only [waits] using settled.single
    · simpa only [waits,table,locks] using settled.current
  | frees owner calls frees waits =>
    have acyclic : LockTable.Acyclic q.table.waitsFor :=
      fun a cycle => settled.acyclic a (cycle.of_subset frees.waits)
    rcases waits with ⟨kept,waits⟩ | waits
    · refine ⟨by simpa only [waits] using settled.single,?_,acyclic⟩
      intro i w waited fresh
      rw [waits] at waited
      have other : w.owner ≠ owner := by
        intro same
        subst same
        exact alone _ calls (waiting_of_wait? waited)
      rw [kept,frees.still w.owner other]
      exact settled.current i w waited fresh
    · refine ⟨?_,?_,acyclic⟩
      · intro i j w v left right same
        rw [waits] at left right
        obtain ⟨w,first,rfl⟩ := Option.map_eq_some_iff.mp left
        obtain ⟨v,second,rfl⟩ := Option.map_eq_some_iff.mp right
        exact settled.single i j w v first second same
      · intro i w waited fresh
        rw [waits] at waited
        obtain ⟨w,_,rfl⟩ := Option.map_eq_some_iff.mp waited
        cases fresh
  | round i lw first r asks decides own others =>
    have own_wait {w : LockWait} (waited : q.wait? i = some w) :
        r = .waiting ∧ w = { lw with woken := false } := by
      rw [own] at waited
      split at waited
      · next waits => exact ⟨waits,(Option.some.inj waited).symm⟩
      · cases waited
    refine ⟨?_,?_,decides.acyclic settled.acyclic⟩
    · have alien {j : Nat} {w v : LockWait} (left : q.wait? i = some w) (differ : j ≠ i)
          (right : q.wait? j = some v) : v.owner ≠ w.owner := by
        obtain ⟨_,rfl⟩ := own_wait left
        change v.owner ≠ lw.owner
        exact settled.other_owner asks alone differ ((others j differ).symm.trans right)
      intro j k w v left right same
      by_cases at_j : j = i
      · by_cases at_k : k = i
        · rw [at_j,at_k]
        · exact absurd same.symm (alien (at_j ▸ left) at_k right)
      · by_cases at_k : k = i
        · exact absurd same (alien (at_k ▸ right) at_j left)
        · exact settled.single j k w v ((others j at_j).symm.trans left)
            ((others k at_k).symm.trans right) same
    · intro j w waited fresh
      by_cases same : j = i
      · subst same
        obtain ⟨rfl,rfl⟩ := own_wait waited
        exact decides.current_of_waiting
      · rw [others j same] at waited
        obtain ⟨holder,taken,edge⟩ := settled.current j w waited fresh
        have other := settled.other_owner asks alone same waited
        exact ⟨holder,decides.owners_taken taken,(decides.edge_other other).trans edge⟩
  | giveUp i lw waited locks own others =>
    have kept {j : Nat} {w : LockWait} (waits : q.wait? j = some w) :
        j ≠ i ∧ p.wait? j = some w := by
      have differ : j ≠ i := by
        intro same
        subst same
        cases own.symm.trans waits
      exact ⟨differ,(others j differ).symm.trans waits⟩
    refine ⟨?_,?_,by rw [table,locks]; exact settled.acyclic.erase lw.owner⟩
    · intro j k w v left right same
      exact settled.single j k w v (kept left).2 (kept right).2 same
    · intro j w waits fresh
      obtain ⟨differ,waits⟩ := kept waits
      obtain ⟨holder,taken,edge⟩ := settled.current j w waits fresh
      have other := settled.other_owner (.inr waited) alone differ waits
      refine ⟨holder,by rwa [table,locks],?_⟩
      rw [table,locks,LockManager.giveUp,LockTable.stopWaiting_waitsFor,if_neg (Ne.symm other)]
      exact edge

theorem Linked.play (linked : p.Linked) (moves : List Move) : (p.play moves).Linked := by
  induction moves generalizing p with
  | nil => exact linked
  | cons m rest ih => exact ih (linked.move m)

theorem Settled.play (settled : p.Settled) {moves : List Move} (alone : p.OneAtATime moves) :
    (p.play moves).Settled := by
  induction moves generalizing p with
  | nil => exact settled
  | cons m rest ih => exact ih (settled.move alone.1) alone.2

theorem linked_start {s : Ledger} (fresh : s.store.locks.table = {})
    (programs : List (Program α)) : (start s programs).Linked := by
  intro a b edge
  change s.store.locks.table.waitsFor[a]? = some b at edge
  simp [fresh] at edge

theorem settled_start {s : Ledger} (fresh : s.store.locks.table = {})
    (programs : List (Program α)) : (start s programs).Settled := by
  refine ⟨fun i j w v waited => ?_,fun i w waited => ?_,fun a cycle => ?_⟩
  · cases (wait?_start s programs i).symm.trans waited
  · cases (wait?_start s programs i).symm.trans waited
  · change LockTable.Waits s.store.locks.table.waitsFor a a at cycle
    rw [fresh] at cycle
    cases cycle with
    | edge waits | step waits => simp at waits

theorem Settled.exists_woken (settled : p.Settled) {blocked : Set TxnId}
    (inhabited : blocked.Nonempty) (closed : ∀ a ∈ blocked, ∃ b ∈ blocked, p.WaitsOn a b) :
    ∃ w ∈ p.waits, w.owner ∈ blocked ∧ w.woken = true := by
  by_contra asleep
  have edges : ∀ a ∈ blocked, ∃ b ∈ blocked, p.table.waitsFor[a]? = some b := by
    intro a member
    obtain ⟨b,inside,w,waits,rfl,taken⟩ := closed a member
    obtain ⟨i,waited⟩ := mem_waits.mp waits
    have fresh : w.woken = false := by
      by_contra woken
      exact asleep ⟨w,waits,member,by simpa using woken⟩
    obtain ⟨holder,held,edge⟩ := settled.current i w waited fresh
    cases held.symm.trans taken
    exact ⟨b,inside,edge⟩
  obtain ⟨x,cycle⟩ := LockTable.exists_cycle inhabited edges
  exact settled.acyclic x cycle

/-- The waits form no cycle and belong to owners that wait; a waiter that is not to be tried again waits
for the owner that holds its record now, and so no owners are left waiting for each other. -/
theorem waits_sound {s : Ledger} (fresh : s.store.locks.table = {}) (programs : List (Program α))
    {moves : List Move} (alone : (start s programs).OneAtATime moves)
    (reached : (start s programs).play moves = p) :
    LockTable.Acyclic p.table.waitsFor ∧
    (∀ a, ¬ p.Waiting a → p.table.waitsFor[a]? = none) ∧
    (∀ w ∈ p.waits, w.woken = false → ∃ holder, p.table.owners[w.id]? = some holder ∧
      p.table.waitsFor[w.owner]? = some holder) ∧
    (∀ blocked : Set TxnId, blocked.Nonempty → (∀ a ∈ blocked, ∃ b ∈ blocked, p.WaitsOn a b) →
      ∃ w ∈ p.waits, w.owner ∈ blocked ∧ w.woken = true) := by
  subst reached
  have settled := (settled_start fresh programs).play alone
  have linked := (linked_start fresh programs).play moves
  refine ⟨settled.acyclic,?_,?_,fun _ => settled.exists_woken⟩
  · intro a idle
    rw [Option.eq_none_iff_forall_ne_some]
    intro b edge
    obtain ⟨i,w,waited,rfl,_⟩ := linked a b edge
    exact idle (waiting_of_wait? waited)
  · intro w waits fresh
    obtain ⟨i,waited⟩ := mem_waits.mp waits
    exact settled.current i w waited fresh

def handover : Pool Unit := start {}
  [.call (.acquire 1 7 none false) fun _ => .call (.release 1 7) fun _ => .done (),
   .call (.acquire 2 7 none false) fun _ => .done (),
   .call (.acquire 3 7 none false) fun _ => .done ()]

/-- The wait for owner 1 outlives its lock, until the waiter is tried again. -/
theorem waits_sound_handover :
    (handover.play [.step 0,.step 1,.step 0,.step 2]).table.waitsFor[2]? = some 1 ∧
    (∃ holder, (handover.play [.step 0,.step 1,.step 0,.step 2,.step 1]).table.owners[7]? = some holder ∧
      (handover.play [.step 0,.step 1,.step 0,.step 2,.step 1]).table.waitsFor[2]? = some holder) ∧
    (handover.play [.step 0,.step 1,.step 0,.step 2,.step 1]).table.waitsFor[1]? = none := by
  have alone : handover.OneAtATime [.step 0,.step 1,.step 0,.step 2,.step 1] := by decide
  have sound := waits_sound (s := {}) rfl _ alone rfl
  refine ⟨by decide,?_,sound.2.1 1 (by decide)⟩
  exact sound.2.2.1 ⟨2,7,0,LockConfig.timeout {},false⟩ (mem_waits.mpr ⟨1,rfl⟩) rfl

end VersionedLedger.Pool

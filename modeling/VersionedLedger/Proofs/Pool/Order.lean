import VersionedLedger.Proofs.Pool.Refusal
import VersionedLedger.Proofs.Program.LockOrder

/-! Pools whose programs ask for locks in ascending order. The floor of every owner lies above the records
that it holds, and whoever waits has its floor at the record it waits for or below; so floors increase
along the waits, even where a wait has outlived the lock, and no request closes a cycle. -/
namespace VersionedLedger

variable {α : Type}

def Worker.Ascends : Worker α → Floors → Prop
  | ready p, g => p.Obeys Rule.ascending (fun _ _ => True) g
  | asleep _ _ next, g => ∀ r, (next r).Obeys Rule.ascending (fun _ _ => True) g
  | blocked w next, g =>
    (Program.call (.acquire w.owner w.id none false) next).Obeys Rule.ascending (fun _ _ => True) g
  | finished _, _ => True

@[simp] theorem Worker.ascends_wake (w : Worker α) (g : Floors) : w.wake.Ascends g ↔ w.Ascends g := by
  cases w <;> rfl

namespace Pool

variable {p q : Pool α} {m : Move} {g : Nat → Floors}

/-- Every worker keeps to the floors of its own owners, which are above what they hold and above what
others wait for them to give back. -/
structure Ordered (p : Pool α) (g : Nat → Floors) : Prop where
  ascends : ∀ (i : Nat) (w : Worker α), p.workers[i]? = some w → w.Ascends (g i)
  own : ∀ (i j : Nat) (a : TxnId) (m n : RecordId), g i a = some m → g j a = some n → i = j
  old : ∀ (i : Nat) (a : TxnId) (n : RecordId), g i a = some n → a < p.ledger.store.nextTxn
  held : ∀ (x : RecordId) (b : TxnId), p.table.owners[x]? = some b → ∃ i n, g i b = some n ∧ x < n
  edges : ∀ a b : TxnId, p.table.waitsFor[a]? = some b →
    ∃ i w, p.wait? i = some w ∧ w.owner = a ∧ ∃ j n, g j b = some n ∧ w.id < n

theorem Ordered.floor_of_wait (ordered : p.Ordered g) {i : Nat} {w : LockWait}
    (waited : p.wait? i = some w) : ∃ floor, g i w.owner = some floor ∧ floor ≤ w.id := by
  obtain ⟨worker,present,waits⟩ := Option.bind_eq_some_iff.mp waited
  cases worker with
  | blocked lw next =>
    cases waits
    obtain ⟨floor,known,low,_⟩ := ordered.ascends i _ present
    exact ⟨floor,known,low⟩
  | _ => cases waits

theorem Ordered.floor_of_request (ordered : p.Ordered g) {owner : TxnId} {id : RecordId}
    (asks : p.request? m = some (owner, id)) : ∃ i floor, g i owner = some floor ∧ floor ≤ id := by
  obtain ⟨i,w,lw,first,next,_,present,asked,rfl,rfl,_⟩ := exists_round_of_request asks
  cases asked with
  | first owner id timeout existing next =>
    obtain ⟨floor,known,low,_⟩ := ordered.ascends i _ present
    exact ⟨i,floor,known,low⟩
  | again => exact ⟨i,ordered.floor_of_wait (by rw [wait?,present]; rfl)⟩

/-- Floors increase along a wait, also if it is for an owner that has given the record back. -/
theorem Ordered.floor_of_edge (ordered : p.Ordered g) {a b : TxnId} {id : RecordId}
    (edge : p.table.waitsFor[a]? = some b) (above : ∃ i n, g i a = some n ∧ id < n) :
    ∃ i n, g i b = some n ∧ id < n := by
  obtain ⟨i,w,waited,rfl,k,n,known,below⟩ := ordered.edges a b edge
  obtain ⟨floor,at_floor,low⟩ := ordered.floor_of_wait waited
  obtain ⟨j,m,seen,exceeds⟩ := above
  cases ordered.own i j _ _ _ at_floor seen
  cases Option.some.inj (at_floor.symm.trans seen)
  exact ⟨k,n,known,Nat.lt_trans (Nat.lt_of_lt_of_le exceeds low) below⟩

theorem Ordered.refused?_eq_none (ordered : p.Ordered g) (m : Move) : p.refused? m = none := by
  rw [Option.eq_none_iff_forall_ne_some]
  intro entry refused
  obtain ⟨owner,id⟩ := entry
  obtain ⟨holder,_,taken,chain⟩ := exists_links_of_refused refused
  have above : ∀ b, Relation.TransGen (p.Link owner) holder b → ∃ i n, g i b = some n ∧ id < n := by
    intro b reached
    induction reached with
    | single link => exact ordered.floor_of_edge link.2 (ordered.held id holder taken)
    | tail _ link ih => exact ordered.floor_of_edge link.2 ih
  obtain ⟨j,n,known,exceeds⟩ := above owner chain
  obtain ⟨i,floor,at_floor,low⟩ := ordered.floor_of_request (Option.filter_eq_some_iff.mp refused).1
  cases ordered.own i j _ _ _ at_floor known
  cases Option.some.inj (at_floor.symm.trans known)
  exact Nat.not_lt.mpr low exceeds

private theorem Ordered.update (ordered : p.Ordered g) {i : Nat} {w after : Worker α} {s : Ledger}
    {own : Floors} (present : p.workers[i]? = some w) (ascends : after.Ascends own)
    (grows : ∀ a n, g i a = some n → ∃ n', own a = some n' ∧ n ≤ n')
    (new : ∀ a n, own a = some n → (∃ m, g i a = some m) ∨
      a = p.ledger.store.nextTxn ∧ a < s.store.nextTxn)
    (later : p.ledger.store.nextTxn ≤ s.store.nextTxn)
    (held : ∀ (x : RecordId) (b : TxnId), s.store.locks.table.owners[x]? = some b →
      p.table.owners[x]? = some b ∨ ∃ n, own b = some n ∧ x < n)
    (edges : ∀ a b : TxnId, s.store.locks.table.waitsFor[a]? = some b →
      p.table.waitsFor[a]? = some b ∧ (∀ lw, w.wait? = some lw → lw.owner ≠ a) ∨
        ∃ lw, after.wait? = some lw ∧ lw.owner = a ∧ p.table.owners[lw.id]? = some b) :
    (p.update i (after, s)).Ordered (Function.update g i own) := by
  have floors {j : Nat} {b : TxnId} {n : RecordId} (known : g j b = some n) :
      ∃ n', Function.update g i own j b = some n' ∧ n ≤ n' := by
    by_cases same : j = i
    · subst same
      rw [Function.update_self]
      exact grows b n known
    · rw [Function.update_of_ne same]
      exact ⟨n,known,Nat.le_refl n⟩
  have above {x : RecordId} {b : TxnId} (known : ∃ j n, g j b = some n ∧ x < n) :
      ∃ j n, Function.update g i own j b = some n ∧ x < n := by
    obtain ⟨j,n,known,below⟩ := known
    obtain ⟨n',now,more⟩ := floors known
    exact ⟨j,n',now,Nat.lt_of_lt_of_le below more⟩
  have source {j : Nat} {a : TxnId} {n : RecordId} (known : Function.update g i own j a = some n) :
      (∃ m, g j a = some m) ∨ j = i ∧ a = p.ledger.store.nextTxn ∧ a < s.store.nextTxn := by
    by_cases same : j = i
    · subst same
      rw [Function.update_self] at known
      exact (new a n known).imp_right fun fresh => ⟨rfl,fresh⟩
    · rw [Function.update_of_ne same] at known
      exact .inl ⟨n,known⟩
  refine ⟨?_,?_,?_,?_,?_⟩
  · intro j w' now
    by_cases same : j = i
    · subst same
      rw [worker_update_self present] at now
      cases now
      rwa [Function.update_self]
    · rw [worker_update_other same] at now
      obtain ⟨before,here,rfl⟩ := Option.map_eq_some_iff.mp now
      rw [Function.update_of_ne same]
      have kept := ordered.ascends j before here
      split
      · exact (Worker.ascends_wake before (g j)).mpr kept
      · exact kept
  · intro j k a m n left right
    rcases source left with ⟨m',first⟩ | ⟨rfl,rfl,_⟩
    · rcases source right with ⟨n',second⟩ | ⟨rfl,rfl,_⟩
      · exact ordered.own j k a m' n' first second
      · exact absurd (ordered.old j _ m' first) (Nat.lt_irrefl _)
    · rcases source right with ⟨n',second⟩ | ⟨rfl,_,_⟩
      · exact absurd (ordered.old k _ n' second) (Nat.lt_irrefl _)
      · rfl
  · intro j a n known
    rcases source known with ⟨m,before⟩ | ⟨_,_,below⟩
    · exact Nat.lt_of_lt_of_le (ordered.old j a m before) later
    · exact below
  · intro x b taken
    rcases held x b taken with before | ⟨n,known,below⟩
    · exact above (ordered.held x b before)
    · exact ⟨i,n,by rwa [Function.update_self],below⟩
  · intro a b edge
    rcases edges a b edge with ⟨before,foreign⟩ | ⟨lw,waits,named,taken⟩
    · obtain ⟨j,lw,waited,named,reason⟩ := ordered.edges a b before
      have differ : j ≠ i := by
        intro same
        subst same
        exact foreign lw ((wait?_of_present present).symm.trans waited) named
      obtain ⟨now,waiting,same_owner,same_id⟩ := exists_wait_update differ after s waited
      exact ⟨j,now,waiting,same_owner.trans named,same_id ▸ above reason⟩
    · exact ⟨i,lw,(wait?_update_self present after s).trans waits,named,above (ordered.held lw.id b taken)⟩

private theorem Ordered.update_kept (ordered : p.Ordered g) {i : Nat} {w after : Worker α} {s : Ledger}
    (present : p.workers[i]? = some w) (ascends : after.Ascends (g i))
    (same : s.store.nextTxn = p.ledger.store.nextTxn)
    (held : ∀ (x : RecordId) (b : TxnId), s.store.locks.table.owners[x]? = some b →
      p.table.owners[x]? = some b)
    (edges : ∀ a b : TxnId, s.store.locks.table.waitsFor[a]? = some b →
      p.table.waitsFor[a]? = some b ∧ (∀ lw, w.wait? = some lw → lw.owner ≠ a) ∨
        ∃ lw, after.wait? = some lw ∧ lw.owner = a ∧ p.table.owners[lw.id]? = some b) :
    ∃ g', (p.update i (after, s)).Ordered g' :=
  ⟨_,ordered.update present ascends (fun _ n known => ⟨n,known,Nat.le_refl n⟩)
    (fun _ n known => .inl ⟨n,known⟩) (Nat.le_of_eq same.symm) (fun x b taken => .inl (held x b taken))
    edges⟩

private theorem subset_answer {s : Ledger} {c : Call} (prompt : c.waits = false) :
    (∀ (x : RecordId) (b : TxnId), (s.answer c).2.store.locks.table.owners[x]? = some b →
      s.store.locks.table.owners[x]? = some b) ∧
    ∀ a b : TxnId, (s.answer c).2.store.locks.table.waitsFor[a]? = some b →
      s.store.locks.table.waitsFor[a]? = some b := by
  cases named : c.lockOwner? with
  | none => simp [s.locks_answer named]
  | some owner =>
    have frees := frees_answer (s := s) prompt named
    exact ⟨frees.owners,frees.waits⟩

private theorem Ordered.answer (ordered : p.Ordered g) {i : Nat} {c : Call}
    {next : c.Reply → Program α} (present : p.workers[i]? = some (.ready (.call c next)))
    (prompt : c.waits = false) :
    ∃ g', (p.update i (.ready (next (p.ledger.answer c).1), (p.ledger.answer c).2)).Ordered g' := by
  have obeys := ordered.ascends i _ present
  obtain ⟨owners,waits⟩ := subset_answer (s := p.ledger) prompt
  by_cases begins : c = .begin
  · subst begins
    have unused : g i p.ledger.store.nextTxn = none := by
      rw [Option.eq_none_iff_forall_ne_some]
      exact fun n known => Nat.lt_irrefl _ (ordered.old i _ n known)
    refine ⟨_,ordered.update present (obeys _ unused) ?_ ?_ (Nat.le_succ _)
      (fun x b taken => .inl (owners x b taken))
      fun a b edge => .inl ⟨waits a b edge,fun lw waits => by cases waits⟩⟩
    · intro a n known
      refine ⟨n,?_,Nat.le_refl n⟩
      rw [Floors.raise,if_neg]
      · exact known
      · intro same
        subst same
        cases unused.symm.trans known
    · intro a n known
      rcases Floors.of_raise known with rfl | before
      · exact .inr ⟨rfl,Nat.lt_succ_self _⟩
      · exact .inl ⟨n,before⟩
  · have goes : (next (p.ledger.answer c).1).Obeys Rule.ascending (fun _ _ => True) (g i) := by
      cases c with
      | acquire => cases prompt
      | begin => exact absurd rfl begins
      | _ => exact obeys _
    exact ordered.update_kept present goes (p.ledger.nextTxn_answer prompt begins) owners
      fun a b edge => .inl ⟨waits a b edge,fun lw waits => by cases waits⟩

private theorem Ordered.round (ordered : p.Ordered g) {i : Nat} {w : Worker α} {lw : LockWait}
    {first : Bool} {next : Outcome Unit → Program α} {r : LockRound} {locks : LockManager}
    (present : p.workers[i]? = some w) (asks : Worker.Asks p.ledger w lw first next)
    (decides : p.ledger.store.locks.Decides lw.owner lw.id first r locks) :
    ∃ g', (p.update i (Worker.resume lw next r, p.ledger.onLocks fun _ => locks)).Ordered g' := by
  have rule : Rule.ascending (.acquire lw.owner lw.id none false)
      (fun r => (next r).Obeys Rule.ascending fun _ _ => True) (g i) := by
    cases asks <;> exact ordered.ascends i _ present
  have named : ∀ lw', w.wait? = some lw' → lw'.owner = lw.owner := by
    intro lw' waits
    cases asks with
    | first => cases waits
    | again => cases waits; rfl
  have edges : ∀ a b : TxnId, locks.table.waitsFor[a]? = some b →
      p.table.waitsFor[a]? = some b ∧ (∀ lw', w.wait? = some lw' → lw'.owner ≠ a) ∨
        ∃ lw', (Worker.resume lw next r).wait? = some lw' ∧ lw'.owner = a ∧
          p.table.owners[lw'.id]? = some b := by
    intro a b edge
    by_cases same : a = lw.owner
    · subst same
      rw [decides.edge_own] at edge
      split at edge
      · next waits => exact .inr ⟨{ lw with woken := false },by rw [waits]; rfl,rfl,edge⟩
      · cases edge
    · rw [decides.edge_other same] at edge
      exact .inl ⟨edge,fun lw' waits named_a => same (named_a.symm.trans (named lw' waits))⟩
  obtain ⟨floor,known,low,granted,refused⟩ := rule
  have raised (ascends : (Worker.resume lw next r).Ascends ((g i).raise lw.owner (lw.id + 1))) :
      ∃ g', (p.update i (Worker.resume lw next r, p.ledger.onLocks fun _ => locks)).Ordered g' := by
    refine ⟨_,ordered.update present ascends
      (fun a n seen => Floors.raise_grows known (Nat.le_succ_of_le low) seen) ?_ (Nat.le_refl _) ?_ edges⟩
    · intro a n seen
      rcases Floors.of_raise seen with rfl | before
      · exact .inl ⟨floor,known⟩
      · exact .inl ⟨n,before⟩
    · intro x b taken
      rcases decides.owners_or_granted taken with before | ⟨_,rfl,rfl⟩
      · exact .inl before
      · exact .inr ⟨_,Floors.raise_self,Nat.lt_succ_self _⟩
  have kept (ascends : (Worker.resume lw next r).Ascends (g i)) (not_granted : r ≠ .granted) :
      ∃ g', (p.update i (Worker.resume lw next r, p.ledger.onLocks fun _ => locks)).Ordered g' := by
    refine ordered.update_kept present ascends rfl (fun x b taken => ?_) edges
    rcases decides.owners_or_granted taken with before | ⟨granted,_⟩
    · exact before
    · exact absurd granted not_granted
  cases r with
  | granted | held => exact raised granted
  | deadlock => exact kept (refused _) (by decide)
  | waiting => exact kept ⟨floor,known,low,granted,refused⟩ (by decide)

theorem Ordered.turn (ordered : p.Ordered g) {i : Nat} {w after : Worker α} {s : Ledger}
    (present : p.workers[i]? = some w) (turn : Worker.Turn p.ledger w after s) :
    ∃ g', (p.update i (after, s)).Ordered g' := by
  have obeys := ordered.ascends i w present
  have still {after : Worker α} (idle : w.wait? = none) (ascends : after.Ascends (g i)) :
      ∃ g', (p.update i (after, p.ledger)).Ordered g' :=
    ordered.update_kept present ascends rfl (fun x b taken => taken)
      fun a b edge => .inl ⟨edge,fun lw waits => by cases idle.symm.trans waits⟩
  cases turn with
  | finish a => exact still rfl trivial
  | doze d watched next => exact still rfl obeys
  | rise wake watched next due => exact still rfl (obeys true)
  | cut wake next cancelled => exact still rfl (obeys false)
  | missing owner id timeout next absent =>
    obtain ⟨_,_,_,_,refused⟩ := obeys
    exact still rfl (refused _)
  | answer c next prompt => exact ordered.answer present prompt
  | round asks decides => exact ordered.round present asks decides
  | giveUp lw next waited taken =>
    obtain ⟨_,_,_,_,refused⟩ := obeys
    refine ordered.update_kept present (refused _) rfl (fun x b taken => taken) ?_
    intro a b edge
    change (p.table.stopWaiting lw.owner).waitsFor[a]? = some b at edge
    rw [LockTable.stopWaiting_waitsFor] at edge
    split at edge
    · cases edge
    · next other =>
      refine .inl ⟨edge,fun lw' waits => ?_⟩
      cases waits
      exact other

theorem Ordered.move (ordered : p.Ordered g) (m : Move) : ∃ g', (p.move m).Ordered g' := by
  rcases p.move_cases m with ⟨d,passes⟩ | still | ⟨i,w,after,s,present,turn,moved,_⟩
  · rw [passes]
    exact ⟨g,ordered.ascends,ordered.own,ordered.old,ordered.held,ordered.edges⟩
  · rw [still]
    exact ⟨g,ordered⟩
  · rw [moved]
    exact ordered.turn present turn

theorem Ordered.play (ordered : p.Ordered g) (moves : List Move) : ∃ g', (p.play moves).Ordered g' := by
  induction moves generalizing p g with
  | nil => exact ⟨g,ordered⟩
  | cons m rest ih =>
    obtain ⟨g',kept⟩ := ordered.move m
    exact ih kept

theorem ordered_start {s : Ledger} (fresh : s.store.locks.table = {}) {programs : List (Program α)}
    (orderly : ∀ program ∈ programs, program.Orderly) :
    (start s programs).Ordered fun _ _ => none := by
  refine ⟨?_,?_,?_,?_,?_⟩
  · intro i w present
    obtain ⟨program,here,rfl⟩ := List.getElem?_map.symm.trans present |> Option.map_eq_some_iff.mp
    exact (orderly program (List.mem_of_getElem? here)).obeys _
  · intro i j a m n known
    cases known
  · intro i a n known
    cases known
  · intro x b taken
    change s.store.locks.table.owners[x]? = some b at taken
    simp [fresh] at taken
  · intro a b edge
    change s.store.locks.table.waitsFor[a]? = some b at edge
    simp [fresh] at edge

/-- If locks are asked for only by work under ordered locks and by single conditional writes, no request
is ever refused. -/
theorem orderly_never_refused {s : Ledger} (fresh : s.store.locks.table = {})
    {programs : List (Program α)} (orderly : ∀ program ∈ programs, program.Orderly)
    (moves : List Move) (m : Move) : ((start s programs).play moves).refused? m = none := by
  obtain ⟨g,ordered⟩ := (ordered_start fresh orderly).play moves
  exact ordered.refused?_eq_none m

def opposite : Pool (Outcome Receipt × Unit) :=
  start { store := .seeded [(1, 10),(2, 10)] }
    [(Transfer.ordered { timeout := 1000 } ⟨1,2,5⟩).start (),
     (Transfer.ordered { timeout := 1000 } ⟨2,1,5⟩).start ()]

/-- The second one asks for record 1 first, which the first one holds. -/
theorem orderly_never_refused_opposite :
    (opposite.play [.step 0,.step 0,.step 1]).request? (.step 1) = some (2, 1) ∧
      (opposite.play [.step 0,.step 0,.step 1]).refused? (.step 1) = none := by
  refine ⟨by decide,orderly_never_refused rfl ?_ _ _⟩
  intro program member
  simp only [List.mem_cons,List.not_mem_nil,or_false] at member
  rcases member with rfl | rfl
  · exact Procedure.orderly_ordered _ _ ()
  · exact Procedure.orderly_ordered _ _ ()

end Pool

end VersionedLedger

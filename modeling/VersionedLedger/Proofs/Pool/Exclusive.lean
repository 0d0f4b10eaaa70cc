import VersionedLedger.Proofs.Pool.Locks
import VersionedLedger.Proofs.Pool.Refusal
import VersionedLedger.Proofs.Program.Held
import VersionedLedger.Proofs.Serial.Replay
import VersionedLedger.Proofs.Store.Commit

/-! Pools whose programs change records only under their locks. No record has two holders, so what a worker has
seen of a record that it holds is what is stored, in every schedule and however the others wait, time out or give
locks back; and a transfer that has been granted both of its locks meets no conflict. -/
namespace VersionedLedger

open View

variable {α : Type}

/-- The worker goes on by the rule, whatever it is replied to a request that waits. A request that insisted on its
record did so when it was made. -/
def Worker.Guards (goal : α → Grip → Prop) (V : View) : Worker α → Grip → Prop
  | ready p, g => p.Obeys Rule.guarded goal g
  | asleep _ _ next, g => ∀ r, (next r).Obeys Rule.guarded goal g
  | blocked w next, g => ∃ existing : Bool, (existing = true → ∃ r, V w.id = some r) ∧
      (Program.call (.acquire w.owner w.id none existing) next).Obeys Rule.guarded goal g
  | finished a, g => goal a g

@[simp] theorem Worker.guards_wake {goal : α → Grip → Prop} {V : View} (w : Worker α) (g : Grip) :
    w.wake.Guards goal V g ↔ w.Guards goal V g := by
  cases w <;> rfl

theorem Worker.Guards.later {goal : α → Grip → Prop} {V V' : View} {w : Worker α} {g : Grip}
    (guards : w.Guards goal V g) (later : Later V V') : w.Guards goal V' g := by
  cases w with
  | blocked lw next =>
    obtain ⟨existing,present,obeys⟩ := guards
    refine ⟨existing,fun insists => ?_,obeys⟩
    obtain ⟨r,here⟩ := present insists
    obtain ⟨r',there,_⟩ := later _ r here
    exact ⟨r',there⟩
  | _ => exact guards

namespace Pool

variable {p : Pool α} {m : Move} {goal : Nat → α → Grip → Prop} {g : Nat → Grip}

def Move.worker? : Move → Option Nat
  | .step i | .expire i => some i
  | .elapse _ => none

/-- The lock that a move grants, also if its owner has it already. -/
def granted? (p : Pool α) (m : Move) : Option (TxnId × RecordId) :=
  (p.request? m).filter fun (owner, id) =>
    let round := (p.ledger.store.locks.request owner id true).1
    round = .granted ∨ round = .held

/-- The locks that a worker is granted in a run, with the owners that it asks for. -/
def grants (p : Pool α) (i : Nat) : List Move → List (TxnId × RecordId)
  | [] => []
  | m :: moves => (if m.worker? = some i then (p.granted? m).toList else []) ++ (p.move m).grants i moves

/-- Every worker keeps to its locks, and knows the records that it holds. -/
structure Exclusive (goal : Nat → α → Grip → Prop) (p : Pool α) (g : Nat → Grip) : Prop where
  guards : ∀ (i : Nat) (w : Worker α), p.workers[i]? = some w → w.Guards (goal i) p.view (g i)
  steady : ∀ i, (g i).Steady p.view
  owned : ∀ i x a, (g i).held x = some a → p.table.owners[x]? = some a ∧ a ∈ (g i).begun
  own : ∀ i j a, a ∈ (g i).begun → a ∈ (g j).begun → i = j
  old : ∀ i a, a ∈ (g i).begun → a < p.ledger.store.nextTxn
  past : ∀ i a x, (a, x) ∈ (g i).granted → a ∈ (g i).begun

theorem Exclusive.unused (exclusive : p.Exclusive goal g) (i : Nat) : (g i).Unused p.ledger.store.nextTxn :=
  ⟨fun begun => Nat.lt_irrefl _ (exclusive.old i _ begun),
    fun x granted => Nat.lt_irrefl _ (exclusive.old i _ (exclusive.past i _ x granted))⟩

theorem Exclusive.apart (exclusive : p.Exclusive goal g) {i j : Nat} {x : RecordId} {a b : TxnId}
    (first : (g i).held x = some a) (second : (g j).held x = some b) : i = j := by
  obtain ⟨taken,begun⟩ := exclusive.owned i x a first
  obtain ⟨same,other⟩ := exclusive.owned j x b second
  cases taken.symm.trans same
  exact exclusive.own i j a begun other

private theorem Exclusive.update (exclusive : p.Exclusive goal g) {i : Nat} {w after : Worker α} {s : Ledger}
    {own : Grip} (present : p.workers[i]? = some w) (guards : after.Guards (goal i) s.store.view own)
    (steady : own.Steady s.store.view) (later : Later p.view s.store.view)
    (changed : ∀ x, (g i).held x = none → s.store.view x = p.view x)
    (owned : ∀ x a, own.held x = some a → s.store.locks.table.owners[x]? = some a ∧ a ∈ own.begun)
    (others : ∀ (x : RecordId) (b : TxnId), b ∉ (g i).begun → p.table.owners[x]? = some b →
      s.store.locks.table.owners[x]? = some b)
    (new : ∀ a ∈ own.begun, a ∈ (g i).begun ∨ a = p.ledger.store.nextTxn ∧ a < s.store.nextTxn)
    (onward : p.ledger.store.nextTxn ≤ s.store.nextTxn)
    (past : ∀ a x, (a, x) ∈ own.granted → a ∈ own.begun) :
    (p.update i (after, s)).Exclusive goal (Function.update g i own) := by
  have source {j : Nat} {a : TxnId} (begun : a ∈ (Function.update g i own j).begun) :
      a ∈ (g j).begun ∨ j = i ∧ a = p.ledger.store.nextTxn ∧ a < s.store.nextTxn := by
    by_cases same : j = i
    · subst same
      rw [Function.update_self] at begun
      exact (new a begun).imp_right fun fresh => ⟨rfl,fresh⟩
    · rw [Function.update_of_ne same] at begun
      exact .inl begun
  refine ⟨fun j w' now => ?_,fun j => ?_,fun j x a => ?_,fun j k a left right => ?_,fun j a begun => ?_,fun j => ?_⟩
  · by_cases same : j = i
    · subst same
      rw [worker_update_self present] at now
      cases now
      rwa [Function.update_self]
    · rw [worker_update_other same] at now
      obtain ⟨before,here,rfl⟩ := Option.map_eq_some_iff.mp now
      rw [Function.update_of_ne same]
      have kept := (exclusive.guards j before here).later later
      split
      · exact (Worker.guards_wake before (g j)).mpr kept
      · exact kept
  · by_cases same : j = i
    · subst same
      rwa [Function.update_self]
    · rw [Function.update_of_ne same]
      refine ⟨(exclusive.steady j).later.trans later,steady.keyed,fun x a held => ?_⟩
      have free : (g i).held x = none := by
        rw [Option.eq_none_iff_forall_ne_some]
        exact fun b both => same (exclusive.apart held both)
      exact (changed x free).trans ((exclusive.steady j).held x a held)
  · by_cases same : j = i
    · subst same
      rw [Function.update_self]
      exact owned x a
    · rw [Function.update_of_ne same]
      intro held
      obtain ⟨taken,begun⟩ := exclusive.owned j x a held
      exact ⟨others x a (fun mine => same (exclusive.own j i a begun mine)) taken,begun⟩
  · rcases source left with first | ⟨rfl,rfl,_⟩
    · rcases source right with second | ⟨rfl,rfl,_⟩
      · exact exclusive.own j k a first second
      · exact absurd (exclusive.old j _ first) (Nat.lt_irrefl _)
    · rcases source right with second | ⟨rfl,_⟩
      · exact absurd (exclusive.old k _ second) (Nat.lt_irrefl _)
      · rfl
  · rcases source begun with before | ⟨_,_,below⟩
    · exact Nat.lt_of_lt_of_le (exclusive.old j a before) onward
    · exact below
  · by_cases same : j = i
    · subst same
      rwa [Function.update_self]
    · rw [Function.update_of_ne same]
      exact exclusive.past j

private theorem Exclusive.update_still (exclusive : p.Exclusive goal g) {i : Nat} {w after : Worker α} {s : Ledger}
    (present : p.workers[i]? = some w) (guards : after.Guards (goal i) p.view (g i))
    (records : s.store.records = p.ledger.store.records)
    (owners : s.store.locks.table.owners = p.table.owners) (next : s.store.nextTxn = p.ledger.store.nextTxn) :
    (p.update i (after, s)).Exclusive goal g := by
  have view : s.store.view = p.view := by
    unfold view Store.view
    rw [records]
  have steady : (g i).Steady s.store.view := by
    rw [view]
    exact exclusive.steady i
  have kept := exclusive.update present (by rwa [view]) steady (by rw [view]; exact .refl _)
    (fun x _ => congrFun view x)
    (fun x a held => by rw [owners]; exact exclusive.owned i x a held) (fun x b _ taken => by rwa [owners])
    (fun a begun => .inl begun) (Nat.le_of_eq next.symm) (exclusive.past i)
  rwa [Function.update_eq_self] at kept

/-- Nothing that has been granted is forgotten. -/
def Recalls (g g' : Nat → Grip) : Prop := ∀ j, (g j).granted ⊆ (g' j).granted

theorem recalls_update {i : Nat} {own : Grip} (more : (g i).granted ⊆ own.granted) :
    Recalls g (Function.update g i own) := by
  intro j
  by_cases same : j = i
  · subst same
    rwa [Function.update_self]
  · rw [Function.update_of_ne same]
    exact List.Subset.refl _

private theorem Exclusive.free (exclusive : p.Exclusive goal g) {i : Nat} {w after : Worker α} {s : Ledger}
    {owner : TxnId} {ids : List RecordId} (present : p.workers[i]? = some w) (begun : owner ∈ (g i).begun)
    (guards : after.Guards (goal i) p.view ((g i).frees owner ids))
    (records : s.store.view = p.view) (next : s.store.nextTxn = p.ledger.store.nextTxn)
    (freed : ∀ x : RecordId, s.store.locks.table.owners[x]? =
      if x ∈ ids ∧ p.table.owners[x]? = some owner then none else p.table.owners[x]?) :
    ∃ g', (p.update i (after, s)).Exclusive goal g' ∧ Recalls g g' := by
  have steady : ((g i).frees owner ids).Steady s.store.view := by
    have before := exclusive.steady i
    rw [records]
    exact ⟨before.later,before.keyed,fun x a held => before.held x a (Grip.held_of_frees held).1⟩
  refine ⟨_,exclusive.update present (by rwa [records]) steady (by rw [records]; exact .refl _)
    (fun x _ => congrFun records x) (fun x a held => ?_) (fun x b foreign taken => ?_) (fun a old => .inl old)
    (Nat.le_of_eq next.symm) (exclusive.past i),recalls_update (List.Subset.refl _)⟩
  · obtain ⟨before,kept⟩ := Grip.held_of_frees held
    obtain ⟨taken,old⟩ := exclusive.owned i x a before
    refine ⟨?_,old⟩
    rw [freed,if_neg,taken]
    rintro ⟨member,same⟩
    exact kept ⟨member,Option.some.inj (taken.symm.trans same)⟩
  · rw [freed,if_neg,taken]
    rintro ⟨_,same⟩
    cases taken.symm.trans same
    exact foreign begun

private theorem Exclusive.write (exclusive : p.Exclusive goal g) {i : Nat} {w after : Worker α} {s : Ledger}
    {V : View} (present : p.workers[i]? = some w) (guards : after.Guards (goal i) V ((g i).sees V))
    (view : s.store.view = V) (locks : s.store.locks = p.ledger.store.locks)
    (next : s.store.nextTxn = p.ledger.store.nextTxn) (later : Later p.view V) (keyed : V.Keyed)
    (changed : ∀ x, (g i).held x = none → V x = p.view x) :
    ∃ g', (p.update i (after, s)).Exclusive goal g' ∧ Recalls g g' := by
  subst view
  exact ⟨_,exclusive.update present guards (Grip.steady_sees keyed) later changed
    (fun x a held => by rw [locks]; exact exclusive.owned i x a held) (fun x b _ taken => by rwa [locks])
    (fun a begun => .inl begun) (Nat.le_of_eq next.symm) (exclusive.past i),recalls_update (List.Subset.refl _)⟩

private theorem Exclusive.answer (exclusive : p.Exclusive goal g) {i : Nat} {c : Call} {next : c.Reply → Program α}
    (present : p.workers[i]? = some (.ready (.call c next))) (prompt : c.waits = false) :
    ∃ g', (p.update i (.ready (next (p.ledger.answer c).1), (p.ledger.answer c).2)).Exclusive goal g' ∧
      Recalls g g' := by
  have obeys := exclusive.guards i _ present
  have steady := exclusive.steady i
  have same (j : Nat) : (g j).granted ⊆ (g j).granted := List.Subset.refl _
  have looks {after : Worker α} {s : Ledger} (guards : after.Guards (goal i) p.view ((g i).sees p.view))
      (view : s.store.view = p.view) (locks : s.store.locks = p.ledger.store.locks)
      (next : s.store.nextTxn = p.ledger.store.nextTxn) :
      ∃ g', (p.update i (after, s)).Exclusive goal g' ∧ Recalls g g' :=
    exclusive.write present guards view locks next (.refl _) steady.keyed fun _ _ => rfl
  cases c with
  | acquire | sleep => cases prompt
  | lookup id => exact looks (obeys p.view steady) rfl rfl rfl
  | begin =>
    have fresh := exclusive.unused i
    refine ⟨_,exclusive.update present (obeys _ fresh) ⟨steady.later,steady.keyed,steady.held⟩ (.refl _)
      (fun _ _ => rfl) (fun x a held => ?_) (fun x b _ taken => taken) (fun a begun => ?_) (Nat.le_succ _)
      (fun a x granted => List.mem_cons_of_mem _ (exclusive.past i a x granted)),recalls_update (same i)⟩
    · obtain ⟨taken,begun⟩ := exclusive.owned i x a held
      exact ⟨taken,List.mem_cons_of_mem _ begun⟩
    · rcases List.mem_cons.mp begun with rfl | old
      · exact .inr ⟨rfl,Nat.lt_succ_self _⟩
      · exact .inl old
  | checkFault operation =>
    obtain ⟨locks,next_same,records⟩ := p.ledger.store_checkFault operation
    refine ⟨g,exclusive.update_still present ?_ records (congrArg (·.table.owners) locks) next_same,same⟩
    change (next (p.ledger.checkFault operation).1).Obeys Rule.guarded (goal i) (g i)
    by_cases due : p.ledger.FaultDue
    · rw [Ledger.checkFault_of_due due]
      exact obeys.2
    · rw [Ledger.checkFault_of_not_due due]
      exact obeys.1
  | release owner id =>
    refine exclusive.free present obeys.1 obeys.2 rfl rfl fun x => ?_
    change (p.table.release owner id).owners[x]? = _
    simp only [LockTable.release_owners,List.mem_singleton,eq_comm]
  | releaseAll owner ids =>
    exact exclusive.free present obeys.1 obeys.2 rfl rfl fun x => LockTable.releaseAll_owners ids x
  | install id expected balance =>
    obtain ⟨⟨a,held⟩,goes⟩ := obeys
    obtain ⟨goes,fails⟩ := goes p.view steady
    have locks := Store.locks_install p.ledger.store id expected balance
    have nextTxn := Store.nextTxn_install p.ledger.store id expected balance
    dsimp only [Ledger.answer,Ledger.onStore]
    cases going : (p.ledger.store.install id expected balance).1 with
    | ok after =>
      have installs := Store.view_install_ok going
      refine exclusive.write present (goes after _ installs) rfl locks nextTxn installs.later
        (installs.keyed steady.keyed) fun x free => ?_
      obtain ⟨r,_,_,_,written⟩ := installs
      rw [written,set_other]
      rintro rfl
      cases held.symm.trans free
    | error e => exact looks (fails e) (Store.view_install_error going) locks nextTxn
  | apply writes =>
    obtain ⟨backed,goes⟩ := obeys
    obtain ⟨goes,fails⟩ := goes p.view steady
    have locks := Store.locks_apply p.ledger.store writes
    have nextTxn := Store.nextTxn_apply p.ledger.store writes
    dsimp only [Ledger.answer,Ledger.onStore]
    cases going : (p.ledger.store.apply writes).1 with
    | ok _ =>
      obtain ⟨current,laid⟩ := Store.view_apply_ok going
      refine exclusive.write present (goes current) laid locks nextTxn
        (.overlay current fun x staged found => (backed x staged found).1) (steady.keyed.overlay writes)
        fun x free => ?_
      unfold overlay
      cases found : writes[x]? with
      | none => rfl
      | some staged =>
        obtain ⟨a,held⟩ := (backed x staged found).2
        cases held.symm.trans free
    | error e =>
      have stale : ¬ Current p.view writes := by
        intro current
        cases going.symm.trans (Store.apply_eq_of_current current)
      exact looks (fails stale e) (Store.view_apply_error going) locks nextTxn
  | _ =>
    exact ⟨g,exclusive.update_still present (obeys _) (p.ledger.records_answer prompt rfl)
      (congrArg (·.table.owners) (p.ledger.locks_answer rfl)) (p.ledger.nextTxn_answer prompt (by simp)),same⟩

private theorem Exclusive.round (exclusive : p.Exclusive goal g) {i : Nat} {w : Worker α} {lw : LockWait}
    {first : Bool} {next : Outcome Unit → Program α} {r : LockRound} {locks : LockManager}
    (present : p.workers[i]? = some w) (asks : Worker.Asks p.ledger w lw first next)
    (decides : p.ledger.store.locks.Decides lw.owner lw.id first r locks) :
    ∃ g', (p.update i (Worker.resume lw next r, p.ledger.onLocks fun _ => locks)).Exclusive goal g' ∧
      Recalls g g' ∧ (r = .granted ∨ r = .held → (lw.owner, lw.id) ∈ (g' i).granted) := by
  have steady := exclusive.steady i
  have rule : ∃ existing : Bool, (existing = true → ∃ r, p.view lw.id = some r) ∧
      Rule.guarded (.acquire lw.owner lw.id none existing) (fun r => (next r).Obeys Rule.guarded (goal i)) (g i) := by
    cases asks with
    | first owner id timeout existing next found =>
      refine ⟨existing,fun insists => ?_,exclusive.guards i _ present⟩
      exact Option.isSome_iff_exists.mp (Std.TreeMap.contains_eq_isSome_getElem?.symm.trans (found insists))
    | again => exact exclusive.guards i _ present
  obtain ⟨existing,found,begun,granted,refused⟩ := rule
  have given (gives : r = .granted ∨ r = .held)
      (guards : (Worker.resume lw next r).Guards (goal i) p.view (((g i).sees p.view).grants lw.owner lw.id)) :
      ∃ g', (p.update i (Worker.resume lw next r, p.ledger.onLocks fun _ => locks)).Exclusive goal g' ∧
        Recalls g g' ∧ (r = .granted ∨ r = .held → (lw.owner, lw.id) ∈ (g' i).granted) := by
    refine ⟨_,exclusive.update present guards ⟨.refl _,steady.keyed,fun _ _ _ => rfl⟩ (.refl _) (fun _ _ => rfl)
      (fun x a held => ?_) (fun x b _ taken => decides.owners_taken taken) (fun a begun => .inl begun) (Nat.le_refl _)
      (fun a x granted => ?_),recalls_update (List.subset_cons_self _ _),fun _ => ?_⟩
    · change (if x = lw.id then some lw.owner else (g i).held x) = some a at held
      split at held
      · next same =>
        cases held
        exact ⟨same ▸ decides.owned_of_granted gives,begun⟩
      · obtain ⟨taken,old⟩ := exclusive.owned i x a held
        exact ⟨decides.owners_taken taken,old⟩
    · rcases List.mem_cons.mp granted with same | before
      · cases same
        exact begun
      · exact exclusive.past i a x before
    · rw [Function.update_self]
      exact List.mem_cons_self
  have kept (not_given : r = .deadlock ∨ r = .waiting)
      (guards : (Worker.resume lw next r).Guards (goal i) p.view (g i)) :
      ∃ g', (p.update i (Worker.resume lw next r, p.ledger.onLocks fun _ => locks)).Exclusive goal g' ∧
        Recalls g g' ∧ (r = .granted ∨ r = .held → (lw.owner, lw.id) ∈ (g' i).granted) := by
    refine ⟨g,exclusive.update_still present guards rfl ?_ rfl,fun j => List.Subset.refl _,fun gives => ?_⟩
    · cases decides <;> simp at not_given <;> rfl
    · rcases gives with rfl | rfl <;> simp at not_given
  cases r with
  | granted => exact given (.inl rfl) (granted p.view steady found)
  | held => exact given (.inr rfl) (granted p.view steady found)
  | deadlock => exact kept (.inl rfl) (refused _)
  | waiting => exact kept (.inr rfl) ⟨existing,found,begun,granted,refused⟩

private theorem Exclusive.turn (exclusive : p.Exclusive goal g) {i : Nat} {w after : Worker α} {s : Ledger}
    (present : p.workers[i]? = some w) (turn : Worker.Turn p.ledger w after s) :
    ∃ g', (p.update i (after, s)).Exclusive goal g' ∧ Recalls g g' := by
  have obeys := exclusive.guards i w present
  have still {after : Worker α} (guards : after.Guards (goal i) p.view (g i)) :
      ∃ g', (p.update i (after, p.ledger)).Exclusive goal g' ∧ Recalls g g' :=
    ⟨g,exclusive.update_still present guards rfl rfl rfl,fun j => List.Subset.refl _⟩
  cases turn with
  | finish a => exact still obeys
  | doze d watched next => exact still obeys
  | rise wake watched next due => exact still (obeys true)
  | cut wake next cancelled => exact still (obeys false)
  | missing owner id timeout next absent => exact still (obeys.2.2 _)
  | answer c next prompt => exact exclusive.answer present prompt
  | round asks decides =>
    obtain ⟨g',kept,recalls,_⟩ := exclusive.round present asks decides
    exact ⟨g',kept,recalls⟩
  | giveUp lw next waited taken =>
    obtain ⟨existing,_,_,_,refused⟩ := obeys
    exact ⟨g,exclusive.update_still present (refused _) rfl rfl rfl,fun j => List.Subset.refl _⟩

theorem Exclusive.move (exclusive : p.Exclusive goal g) (m : Move) :
    ∃ g', (p.move m).Exclusive goal g' ∧ Recalls g g' ∧
      ∀ j entry, m.worker? = some j → p.granted? m = some entry → entry ∈ (g' j).granted := by
  cases gives : p.granted? m with
  | some entry =>
    obtain ⟨owner,id⟩ := entry
    obtain ⟨asks,given⟩ := Option.filter_eq_some_iff.mp gives
    obtain ⟨i,w,lw,first,next,made,present,round,rfl,rfl,moved⟩ := exists_round_of_request asks
    obtain ⟨g',kept,recalls,remembers⟩ :=
      exclusive.round present round (p.ledger.store.locks.decides_request lw.owner lw.id first)
    rw [moved,lockRound_eq]
    refine ⟨g',kept,recalls,fun j entry acts same => ?_⟩
    cases same
    have worker : m.worker? = some i := by rcases made with rfl | rfl <;> rfl
    cases worker.symm.trans acts
    rw [LockManager.round_request first true] at remembers
    exact remembers (by simpa using given)
  | none =>
    rcases p.move_cases m with ⟨d,passes⟩ | still | ⟨i,w,after,s,present,turn,moved,_⟩
    · rw [passes]
      refine ⟨g,⟨exclusive.guards,exclusive.steady,exclusive.owned,exclusive.own,exclusive.old,exclusive.past⟩,
        fun j => List.Subset.refl _,fun j entry _ given => by cases given⟩
    · rw [still]
      exact ⟨g,exclusive,fun j => List.Subset.refl _,fun j entry _ given => by cases given⟩
    · rw [moved]
      obtain ⟨g',kept,recalls⟩ := exclusive.turn present turn
      exact ⟨g',kept,recalls,fun j entry _ given => by cases given⟩

theorem Exclusive.play (exclusive : p.Exclusive goal g) (moves : List Move) :
    ∃ g', (p.play moves).Exclusive goal g' ∧ ∀ j entry, entry ∈ (g j).granted ∨ entry ∈ p.grants j moves →
      entry ∈ (g' j).granted := by
  induction moves generalizing p g with
  | nil => exact ⟨g,exclusive,fun j entry known => known.resolve_right List.not_mem_nil⟩
  | cons m moves ih =>
    obtain ⟨g',kept,recalls,remembers⟩ := exclusive.move m
    obtain ⟨g'',final,later⟩ := ih kept
    refine ⟨g'',final,fun j entry known => later j entry ?_⟩
    rcases known with before | since
    · exact .inl (recalls j before)
    · rcases List.mem_append.mp since with now | rest
      · split at now
        · next acts => exact .inl (remembers j entry acts (Option.mem_toList.mp now))
        · cases now
      · exact .inr rest

theorem exclusive_start {s : Ledger} (keyed : s.store.view.Keyed) {programs : List (Program α)}
    (obeys : ∀ (i : Nat) (program : Program α), programs[i]? = some program →
      program.Obeys Rule.guarded (goal i) (.empty s.store.view)) :
    (start s programs).Exclusive goal fun _ => .empty s.store.view where
  guards i w present := by
    obtain ⟨program,here,rfl⟩ := List.getElem?_map.symm.trans present |> Option.map_eq_some_iff.mp
    exact obeys i program here
  steady i := ⟨.refl _,keyed,fun _ _ held => by cases held⟩
  owned i x a held := by cases held
  own i j a begun := by cases begun
  old i a begun := by cases begun
  past i a x granted := by cases granted

/-- Where records are changed only under their locks, a transfer that has been granted both of its locks fails
neither by a conflict nor by a refused or an expired wait, in any schedule. -/
theorem fails_of_locked {s : Ledger} (keyed : s.store.view.Keyed) {programs : List (Program (Outcome Written))}
    (guarded : ∀ program ∈ programs, program.Guarded) {o : Operation} {t : Transfer}
    (transfers : o.transfer? = some t) {i : Nat} (here : programs[i]? = some o.program)
    (moves : List Move) {p : Pool (Outcome Written)} (reached : (start s programs).play moves = p)
    (locked : t.Locked ((start s programs).grants i moves)) {f : Failure}
    (failed : p.result? i = some (.error f)) : t.Fails p.view f := by
  subst reached
  let goal (j : Nat) : Outcome Written → Grip → Prop := if j = i then t.Secure [] else fun _ _ => True
  have start : (start s programs).Exclusive goal fun _ => .empty s.store.view := by
    refine exclusive_start keyed fun j program there => ?_
    by_cases same : j = i
    · subst same
      cases here.symm.trans there
      simp only [goal,if_true]
      exact Operation.secure_program transfers (.empty s.store.view)
    · simp only [goal,if_neg same]
      exact guarded program (List.mem_of_getElem? there) _
  obtain ⟨g,exclusive,remembers⟩ := start.play moves
  obtain ⟨w,present,ended⟩ := Option.bind_eq_some_iff.mp failed
  cases w with
  | finished a =>
    cases ended
    have secure : t.Secure [] (.error f : Outcome Written) (g i) := by
      have guards := exclusive.guards i _ present
      simp only [goal,if_true] at guards
      exact guards
    obtain ⟨a,source,target⟩ := locked
    have known : t.Locked (g i).granted :=
      ⟨a,remembers i _ (.inr source),remembers i _ (.inr target)⟩
    rcases secure known with ⟨_,impossible,_⟩ | fails
    · cases impossible
    · exact fails.later (exclusive.steady i).later
  | _ => cases ended

def contended : List (Program (Outcome Written)) :=
  [(Operation.ordered { timeout := 1000 } ⟨1,2,30⟩).program,
   (Operation.coordinated { locking := { timeout := 1000 }, policy := {} } ⟨2,1,60⟩).program,
   (Operation.update 2 fun balance => .ok (balance + 5)).program,
   ((Optimistic.conditionalUpdate 1 0 7).start ()).bind fun r => .done (r.1.map fun after => .update ⟨after,after⟩)]

def contendedMoves : List Move :=
  List.replicate 4 (.step 1) ++ List.replicate 3 (.step 0) ++ List.replicate 4 (.step 3) ++
    List.replicate 10 (.step 1) ++ List.replicate 12 (.step 0) ++ .elapse 1000000000 ::
      (List.replicate 20 [.step 3,.step 2,.step 1]).flatten

/-- The first transfer meets a fault at its commit. The second one is picked to break a cycle, and finds too little
when it has got both locks at its next attempt; the conditional write has waited for the first one. -/
theorem fails_of_locked_contended :
    let s : Ledger := { store := { Store.seeded [(1, 100),(2, 50)] with faults := { script := [false,true] } } }
    let p := (start s contended).play contendedMoves
    let fault : Failure := .error (.unavailable "injected fault during commit")
    let refused : Failure := .error (.validation "insufficient funds: balance=50, debit=60")
    (∀ program ∈ contended, program.Guarded) ∧
      (start s contended).grants 0 contendedMoves = [(2, 1),(2, 2)] ∧ p.result? 0 = some (.error fault) ∧
      Transfer.Fails ⟨1,2,30⟩ p.view fault ∧
      (start s contended).grants 1 contendedMoves = [(1, 2),(4, 2),(4, 1)] ∧ p.result? 1 = some (.error refused) ∧
      Transfer.Fails ⟨2,1,60⟩ p.view refused := by
  intro s p fault refused
  have guarded : ∀ program ∈ contended, program.Guarded := by
    intro program member
    simp only [contended,List.mem_cons,List.not_mem_nil,or_false] at member
    rcases member with rfl | rfl | rfl | rfl
    · exact Operation.guarded_program _
    · exact Operation.guarded_program _
    · exact Operation.guarded_program _
    · exact (Optimistic.guarded_conditionalUpdate 1 0 7).program () _
  have keyed : s.store.view.Keyed := Store.keyed_seeded [(1, 100),(2, 50)]
  have first : (start s contended).grants 0 contendedMoves = [(2, 1),(2, 2)] := by decide +kernel
  have second : (start s contended).grants 1 contendedMoves = [(1, 2),(4, 2),(4, 1)] := by decide +kernel
  have first_failed : p.result? 0 = some (.error fault) := by decide +kernel
  have second_failed : p.result? 1 = some (.error refused) := by decide +kernel
  have reached : (start s contended).play contendedMoves = p := rfl
  refine ⟨guarded,first,first_failed,?_,second,second_failed,?_⟩
  · have transfers : (Operation.ordered { timeout := 1000 } ⟨1,2,30⟩).transfer? = some ⟨1,2,30⟩ := rfl
    have locked : Transfer.Locked ⟨1,2,30⟩ ((start s contended).grants 0 contendedMoves) := by
      rw [first]
      exact ⟨2,by simp⟩
    exact fails_of_locked keyed guarded transfers rfl contendedMoves reached locked first_failed
  · have transfers : (Operation.coordinated { locking := { timeout := 1000 }, policy := {} } ⟨2,1,60⟩).transfer? =
        some ⟨2,1,60⟩ := rfl
    have locked : Transfer.Locked ⟨2,1,60⟩ ((start s contended).grants 1 contendedMoves) := by
      rw [second]
      exact ⟨4,by simp⟩
    exact fails_of_locked keyed guarded transfers rfl contendedMoves reached locked second_failed

end Pool

end VersionedLedger

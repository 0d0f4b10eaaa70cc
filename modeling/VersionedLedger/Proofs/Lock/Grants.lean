import Mathlib.Data.Finset.Card
import Mathlib.Logic.Function.Basic
import VersionedLedger.Proofs.Lock.Rounds

/-! What is done with the locks, one thing after another, and what it comes to: who holds which lock, how many locks
have been granted, and how many have been freed. -/
namespace VersionedLedger

inductive LockEvent
  | ended (owner : TxnId) (id : RecordId) (reply : Outcome Unit)
  /-- An owner has given locks back, whether it had them or not. -/
  | gave (owner : TxnId) (ids : List RecordId)

abbrev Holders := RecordId → Option TxnId

namespace LockEvent

def leaves (held : Holders) : LockEvent → Holders
  | ended owner id (.ok _) => Function.update held id (some owner)
  | ended _ _ (.error _) => held
  | gave owner ids => fun x => if x ∈ ids ∧ held x = some owner then none else held x

def grants (held : Holders) : LockEvent → Nat
  | ended owner id (.ok _) => if held id = some owner then 0 else 1
  | ended _ _ (.error _) | gave .. => 0

/-- Each of the locks counts once, however often it is named. -/
def frees (held : Holders) : LockEvent → Nat
  | gave owner ids => (ids.toFinset.filter fun x => held x = some owner).card
  | ended .. => 0

def isRefusal : LockEvent → Bool
  | ended _ _ (.error (.error (.deadlock _))) => true
  | _ => false

def isTimeout : LockEvent → Bool
  | ended _ _ (.error (.error (.lockTimeout ..))) => true
  | _ => false

def holders : Holders → List LockEvent → Holders
  | held, [] => held
  | held, e :: rest => holders (e.leaves held) rest

/-- What the events come to, each of them counted under the locks that are held before it. -/
def total (count : Holders → LockEvent → Nat) : Holders → List LockEvent → Nat
  | _, [] => 0
  | held, e :: rest => count held e + total count (e.leaves held) rest

/-- No lock is granted that somebody else has. -/
def Exclusive : Holders → List LockEvent → Prop
  | _, [] => True
  | held, e :: rest => (∀ owner id, e = ended owner id (.ok ()) → ∀ b, held id = some b → b = owner) ∧
      Exclusive (e.leaves held) rest

def Kept (owner : TxnId) (id : RecordId) (log : List LockEvent) : Prop := ∀ ids, gave owner ids ∈ log → id ∉ ids

/-- A lock has been granted to an owner, who has not given it back since. -/
def Outstanding (log : List LockEvent) (owner : TxnId) (id : RecordId) : Prop :=
  ∃ before after, log = before ++ ended owner id (.ok ()) :: after ∧ Kept owner id after

variable {held : Holders} {log rest : List LockEvent} {e : LockEvent} {owner : TxnId} {id : RecordId}

theorem outstanding_cons : Outstanding (e :: rest) owner id ↔
    Outstanding rest owner id ∨ e = ended owner id (.ok ()) ∧ Kept owner id rest := by
  constructor
  · rintro ⟨before,after,split,kept⟩
    rcases List.append_eq_cons_iff.mp split.symm with ⟨rfl,same⟩ | ⟨before,rfl,rfl⟩
    · obtain ⟨rfl,rfl⟩ := List.cons.inj same.symm
      exact .inr ⟨rfl,kept⟩
    · exact .inl ⟨before,after,rfl,kept⟩
  · rintro (⟨before,after,rfl,kept⟩ | ⟨rfl,kept⟩)
    · exact ⟨e :: before,after,rfl,kept⟩
    · exact ⟨[],rest,rfl,kept⟩

theorem kept_cons : Kept owner id (e :: rest) ↔ (∀ ids, e = gave owner ids → id ∉ ids) ∧ Kept owner id rest := by
  unfold Kept
  simp only [List.mem_cons,or_imp,forall_and]
  exact and_congr_left fun _ => forall_congr' fun ids => imp_congr_left eq_comm

/-- What is held is what was granted and has not been given back by its owner since. -/
theorem holders_eq_some_iff (exclusive : Exclusive held log) : holders held log id = some owner ↔
    Outstanding log owner id ∨ held id = some owner ∧ Kept owner id log := by
  induction log generalizing held with
  | nil => simp [holders,Outstanding,Kept]
  | cons e rest ih =>
    obtain ⟨alone,exclusive⟩ := exclusive
    rw [holders,ih exclusive,outstanding_cons,kept_cons,or_assoc]
    refine or_congr_right ?_
    cases e with
    | ended a x reply =>
      cases reply with
      | error f => simp [leaves]
      | ok _ =>
        by_cases same : id = x
        · subst same
          have mine : held id = some owner → a = owner := fun here => (alone a id rfl owner here).symm
          by_cases own : a = owner <;> simp [leaves,own]
          exact fun here => absurd (mine here) own
        · simp [leaves,same,Ne.symm same]
    | gave a ids =>
      by_cases own : a = owner
      · subst own
        by_cases named : id ∈ ids <;> simp [leaves,named]
      · have other : (id ∈ ids ∧ held id = some a) → held id ≠ some owner :=
          fun ⟨_,here⟩ mine => own (Option.some.inj (here.symm.trans mine))
        by_cases given : id ∈ ids ∧ held id = some a
        · simp [leaves,given,own]
        · simp [leaves,given,own]

end LockEvent

namespace LockTable

variable {t : LockTable} {owner : TxnId} {id : RecordId} {ids : List RecordId}

theorem size_release (t : LockTable) (owner : TxnId) (id : RecordId) :
    (t.release owner id).owners.size + (if t.owners[id]? = some owner then 1 else 0) = t.owners.size := by
  unfold release holds
  by_cases held : t.owners[id]? = some owner
  · have key : t.owners.contains id = true := by
      rw [Std.TreeMap.contains_eq_isSome_getElem?,held]
      rfl
    have inhabited : t.owners.isEmpty = false :=
      Std.TreeMap.isEmpty_eq_false_iff_exists_contains_eq_true.mpr ⟨id,key⟩
    rw [Std.TreeMap.isEmpty_eq_size_eq_zero,beq_eq_false_iff_ne] at inhabited
    simp only [held,beq_self_eq_true,if_true,Std.TreeMap.size_erase,key]
    omega
  · simp [held]

theorem size_releaseAll (t : LockTable) (owner : TxnId) (ids : List RecordId) :
    (t.releaseAll owner ids).owners.size + (ids.toFinset.filter fun x => t.owners[x]? = some owner).card =
      t.owners.size := by
  rw [releaseAll,stopWaiting_owners]
  induction ids generalizing t with
  | nil => rfl
  | cons id ids ih =>
    -- a lock that is named again is not held any more
    have rest : (ids.toFinset.filter fun x => (t.release owner id).owners[x]? = some owner) =
        (ids.toFinset.filter fun x => t.owners[x]? = some owner).erase id := by
      ext x
      rw [Finset.mem_erase,Finset.mem_filter,Finset.mem_filter,release_owners]
      by_cases same : id = x
      · simp [same]
      · simp [same,Ne.symm same]
    have first := t.size_release owner id
    have after := ih (t.release owner id)
    rw [rest] at after
    rw [List.foldl_cons,List.toFinset_cons,Finset.filter_insert]
    by_cases held : t.owners[id]? = some owner
    · have counted := Finset.card_erase_add_one
        (Finset.mem_insert_self id (ids.toFinset.filter fun x => t.owners[x]? = some owner))
      rw [Finset.erase_insert_eq_erase] at counted
      rw [if_pos held] at first ⊢
      omega
    · have outside : id ∉ ids.toFinset.filter fun x => t.owners[x]? = some owner := by simp [held]
      rw [if_neg held] at first ⊢
      rw [Finset.erase_eq_of_notMem outside] at after
      omega

end LockTable

def LockRound.reply? (id : RecordId) : LockRound → Option (Outcome Unit)
  | .granted | .held => some (.ok ())
  | .deadlock => some (.error (.error (.deadlock id)))
  | .waiting => none

namespace LockManager

open LockEvent

variable {m after : LockManager} {owner : TxnId} {id : RecordId} {e : LockEvent}

def held (m : LockManager) : Holders := fun x => m.table.owners[x]?

inductive Does (m : LockManager) : Option LockEvent → LockManager → Prop
  | quiet : Does m none m
  | round {owner : TxnId} {id : RecordId} {first : Bool} {r : LockRound} {after : LockManager}
      (decides : m.Decides owner id first r after) : Does m ((r.reply? id).map (.ended owner id)) after
  | giveUp (owner : TxnId) (id : RecordId) (waited : Nat) (taken : m.table.heldByOther owner id = true) :
    Does m (some (.ended owner id (.error (.error (.lockTimeout id waited))))) (m.giveUp owner)
  | release (owner : TxnId) (id : RecordId) : Does m (some (.gave owner [id])) (m.release owner id)
  | releaseAll (owner : TxnId) (ids : List RecordId) : Does m (some (.gave owner ids)) (m.releaseAll owner ids)

inductive Ends (m : LockManager) (owner : TxnId) (id : RecordId) : Outcome Unit → LockStats → Prop
  | again (mine : m.table.owners[id]? = some owner) : Ends m owner id (.ok ()) m.stats
  | granted (free : m.table.owners[id]? = none) :
    Ends m owner id (.ok ()) { m.stats with acquired := m.stats.acquired + 1 }
  | refused (holder : TxnId) (taken : m.table.owners[id]? = some holder) (other : holder ≠ owner) :
    Ends m owner id (.error (.error (.deadlock id))) { m.stats with deadlocks := m.stats.deadlocks + 1 }
  | late (holder : TxnId) (taken : m.table.owners[id]? = some holder) (other : holder ≠ owner) (waited : Nat) :
    Ends m owner id (.error (.error (.lockTimeout id waited))) { m.stats with timeouts := m.stats.timeouts + 1 }

structure Counted (m : LockManager) (e : LockEvent) (after : LockManager) : Prop where
  held : after.held = e.leaves m.held
  size : after.heldCount + e.frees m.held = m.heldCount + e.grants m.held
  acquired : after.stats.acquired = m.stats.acquired + e.grants m.held
  deadlocks : after.stats.deadlocks = m.stats.deadlocks + if e.isRefusal then 1 else 0
  timeouts : after.stats.timeouts = m.stats.timeouts + if e.isTimeout then 1 else 0
  exclusive : ∀ owner id, e = .ended owner id (.ok ()) → ∀ b, m.held id = some b → b = owner

theorem counted_granted (free : m.table.owners[id]? = none) (reply : Unit) :
    m.Counted (.ended owner id (.ok reply))
      { table := m.table.grant owner id, stats := { m.stats with acquired := m.stats.acquired + 1 } } := by
  have unheld : m.held id = none := free
  have absent : ¬ m.table.owners.contains id = true := by
    rw [Std.TreeMap.contains_eq_isSome_getElem?,free]
    exact Bool.false_ne_true
  have once : grants m.held (.ended owner id (.ok reply)) = 1 := by simp [grants,unheld]
  refine ⟨?_,?_,by rw [once],rfl,rfl,fun a x same b taken => ?_⟩
  · funext x
    change (m.table.grant owner id).owners[x]? = Function.update m.held id (some owner) x
    rw [LockTable.grant_owners,Function.update_apply]
    by_cases same : id = x
    · rw [if_pos same,if_pos same.symm]
    · rw [if_neg same,if_neg (Ne.symm same)]
      rfl
  · have size : (m.table.owners.insert id owner).size = m.table.owners.size + 1 := by
      rw [Std.TreeMap.size_insert,if_neg absent]
    rw [once]
    exact size
  · cases same
    cases unheld.symm.trans taken

theorem counted_unmoved {reply : Outcome Unit} (owners : after.table.owners = m.table.owners)
    (leaves : leaves m.held (.ended owner id reply) = m.held) (none : grants m.held (.ended owner id reply) = 0)
    (acquired : after.stats.acquired = m.stats.acquired)
    (deadlocks : after.stats.deadlocks = m.stats.deadlocks + if isRefusal (.ended owner id reply) then 1 else 0)
    (timeouts : after.stats.timeouts = m.stats.timeouts + if isTimeout (.ended owner id reply) then 1 else 0)
    (mine : reply = .ok () → m.held id = some owner) : m.Counted (.ended owner id reply) after := by
  refine ⟨?_,?_,by rw [none,acquired]; rfl,deadlocks,timeouts,fun a x same b taken => ?_⟩
  · rw [leaves]
    exact funext fun x => congrArg (·[x]?) owners
  · rw [none]
    exact congrArg Std.TreeMap.size owners
  · cases same
    exact Option.some.inj (taken.symm.trans (mine rfl))

theorem counted_gave {table : LockTable} {ids : List RecordId}
    (owners : ∀ x : RecordId, table.owners[x]? = if x ∈ ids ∧ m.table.owners[x]? = some owner then none
      else m.table.owners[x]?)
    (size : table.owners.size + (ids.toFinset.filter fun x => m.table.owners[x]? = some owner).card =
      m.table.owners.size) : m.Counted (.gave owner ids) { m with table } :=
  ⟨funext owners,size,rfl,rfl,rfl,fun a x same => by cases same⟩

theorem Does.counted (does : m.Does (some e) after) : m.Counted e after := by
  generalize given : some e = event at does
  cases does with
  | quiet => cases given
  | @round owner id first r after decides =>
    cases decides with
    | granted free =>
      cases given
      exact counted_granted free ()
    | held own =>
      cases given
      have mine : m.held id = some owner := own
      exact counted_unmoved rfl (Function.update_eq_self_iff.mpr mine.symm) (if_pos mine) rfl rfl rfl fun _ => mine
    | deadlock holder taken other cycle =>
      cases given
      exact counted_unmoved rfl rfl rfl rfl rfl rfl nofun
    | waiting => cases given
  | giveUp owner id waited taken =>
    cases given
    exact counted_unmoved rfl rfl rfl rfl rfl rfl nofun
  | release owner id =>
    cases given
    refine counted_gave (fun x => ?_) ?_
    · rw [LockTable.release_owners]
      simp [eq_comm]
    · rw [← m.table.size_release owner id]
      by_cases mine : m.table.owners[id]? = some owner <;> simp [Finset.filter_singleton,mine]
  | releaseAll owner ids =>
    cases given
    exact counted_gave (LockTable.releaseAll_owners ids) (m.table.size_releaseAll owner ids)

theorem Does.ends {reply : Outcome Unit} (does : m.Does (some (.ended owner id reply)) after) :
    m.Ends owner id reply after.stats := by
  generalize given : some (LockEvent.ended owner id reply) = event at does
  cases does with
  | quiet => cases given
  | round decides =>
    cases decides with
    | granted free =>
      cases given
      exact .granted free
    | held own =>
      cases given
      exact .again own
    | deadlock holder taken other =>
      cases given
      exact .refused holder taken other
    | waiting => cases given
  | giveUp owner id waited taken =>
    cases given
    unfold LockTable.heldByOther at taken
    split at taken
    · next holder here => exact .late holder here (by simpa using taken) waited
    · cases taken
  | _ => cases given

theorem Does.gave {ids : List RecordId} (does : m.Does (some (.gave owner ids)) after) :
    after.stats = m.stats ∧ ∀ x : RecordId, after.table.owners[x]? =
      if x ∈ ids ∧ m.table.owners[x]? = some owner then none else m.table.owners[x]? := by
  have held := does.counted.held
  generalize given : some (LockEvent.gave owner ids) = event at does
  cases does with
  | quiet => cases given
  | round decides => cases decides <;> cases given
  | giveUp => cases given
  | release | releaseAll =>
    cases given
    exact ⟨rfl,congrFun held⟩

theorem Does.silent (does : m.Does none after) : after.table.owners = m.table.owners ∧
    ∃ waits, m.stats.waits ≤ waits ∧ after.stats = { m.stats with waits } := by
  generalize given : none = event at does
  cases does with
  | quiet => exact ⟨rfl,_,Nat.le_refl _,rfl⟩
  | round decides =>
    cases decides with
    | waiting => exact ⟨rfl,_,Nat.le_add_right _ _,rfl⟩
    | _ => cases given
  | _ => cases given

structure Accounted (m : LockManager) (log : List LockEvent) (after : LockManager) : Prop where
  held : after.held = holders m.held log
  size : after.heldCount + total frees m.held log = m.heldCount + total grants m.held log
  acquired : after.stats.acquired = m.stats.acquired + total grants m.held log
  deadlocks : after.stats.deadlocks = m.stats.deadlocks + log.countP isRefusal
  timeouts : after.stats.timeouts = m.stats.timeouts + log.countP isTimeout
  exclusive : Exclusive m.held log

theorem accounted_nil (m : LockManager) : m.Accounted [] m := ⟨rfl,rfl,rfl,rfl,rfl,trivial⟩

variable {middle : LockManager} {log : List LockEvent}

theorem Counted.accounted (counted : m.Counted e middle) (accounted : middle.Accounted log after) :
    m.Accounted (e :: log) after := by
  obtain ⟨held,size,acquired,deadlocks,timeouts,alone⟩ := counted
  obtain ⟨held',size',acquired',deadlocks',timeouts',exclusive⟩ := accounted
  rw [held] at held' size' acquired' exclusive
  refine ⟨held',?_,?_,?_,?_,alone,exclusive⟩
  · simp only [total]
    omega
  · simp only [total]
    omega
  · rw [List.countP_cons,deadlocks',deadlocks]
    omega
  · rw [List.countP_cons,timeouts',timeouts]
    omega

theorem Does.accounted {event : Option LockEvent} (does : m.Does event middle)
    (accounted : middle.Accounted log after) : m.Accounted (event.toList ++ log) after := by
  cases event with
  | some e => exact does.counted.accounted accounted
  | none =>
    obtain ⟨owners,waits,_,stats⟩ := does.silent
    have held : middle.held = m.held := funext fun x => congrArg (·[x]?) owners
    have size : middle.heldCount = m.heldCount := congrArg Std.TreeMap.size owners
    obtain ⟨held',size',acquired,deadlocks,timeouts,exclusive⟩ := accounted
    rw [held] at held' size' acquired exclusive
    rw [stats] at acquired deadlocks timeouts
    exact ⟨held',size ▸ size',acquired,deadlocks,timeouts,exclusive⟩

end LockManager

end VersionedLedger

import VersionedLedger.Transfer.Coordinator
import VersionedLedger.Optimistic
import VersionedLedger.Proofs.Serial.View

/-! The operations that change records: an update with a function of the balance, a transfer under ordered
locks, and a transfer in request order that is retried when it is picked to break a cycle. Each has a
meaning on the records alone, which is what it does when it succeeds. -/
namespace VersionedLedger

open Procedure

inductive Operation
  | update (id : RecordId) (mutate : Amount → Outcome Amount)
  | ordered (l : Locking) (t : Transfer)
  | coordinated (c : DeadlockCoordinator) (t : Transfer)

inductive Written
  | update (u : Update)
  | transfer (r : Receipt)
  deriving DecidableEq, Repr

/-- A transfer on the records alone. -/
inductive Transfer.Moves (t : Transfer) (V : View) : Receipt → View → Prop
  | intro {source target source' target' : Record} {debited credited : Amount}
      (valid : t.validate = .ok ())
      (source_here : V t.source = some source) (target_here : V t.target = some target)
      (debit : Account.debit source.balance t.amount = .ok debited)
      (credit : Account.credit target.balance t.amount = .ok credited)
      (source_next : source.next debited = .ok source')
      (target_next : target.next credited = .ok target') :
    Moves t V ⟨t, source'.balance, target'.balance, source'.version, target'.version⟩
      ((V.set t.source source').set t.target target')

namespace Operation

def procedure : Operation → Procedure Unit Written
  | update id mutate => do
    let u ← Optimistic.update id fun balance => ofOutcome (mutate balance)
    pure (.update u)
  | ordered l t => do
    let receipt ← t.ordered l
    pure (.transfer receipt)
  | coordinated c t => do
    let receipt ← c.transfer t
    pure (.transfer receipt)

def program (o : Operation) : Program (Outcome Written) :=
  (o.procedure.start ()).bind fun r => .done r.1

/-- What an operation that succeeds does to the records, and what it returns. -/
inductive Achieves : Operation → View → Written → View → Prop
  | update {id : RecordId} {mutate : Amount → Outcome Amount} {V : View} {before after : Record}
      {balance : Amount} (here : V id = some before) (computed : mutate before.balance = .ok balance)
      (next : before.next balance = .ok after) :
    Achieves (.update id mutate) V (.update ⟨before, after⟩) (V.set id after)
  | ordered {l : Locking} {t : Transfer} {V V' : View} {receipt : Receipt}
      (moves : t.Moves V receipt V') : Achieves (.ordered l t) V (.transfer receipt) V'
  | coordinated {c : DeadlockCoordinator} {t : Transfer} {V V' : View} {receipt : Receipt}
      (moves : t.Moves V receipt V') : Achieves (.coordinated c t) V (.transfer receipt) V'

end Operation

namespace Session

variable {t : Transaction} {id : RecordId}

theorem view_unstaged {r : Record} (unstaged : t.writes[r.id]? = none) : t.view r = .ok r := by
  unfold Transaction.view
  rw [unstaged]

def stageFirst (t : Transaction) (r : Record) (balance : Amount) : Transaction :=
  { t with writes := t.writes.insert r.id ⟨r.version, balance, 1⟩ }

theorem stage_first {r : Record} {balance : Amount} (active : t.ensureActive = .ok ())
    (unstaged : t.writes[r.id]? = none) :
    t.stage r r.version balance = (r.next balance, stageFirst t r balance) := by
  unfold Transaction.stage
  rw [active]
  simp [unstaged,stageFirst]

theorem stage_unstaged {r : Record} {expected : Version} {balance : Amount}
    (unstaged : t.writes[r.id]? = none) :
    t.stage r expected balance = (r.next balance, stageFirst t r balance) ∧ r.version = expected ∨
      ∃ e, t.stage r expected balance = (.error e, t) := by
  cases active : t.ensureActive with
  | error e =>
    refine .inr ⟨.error e,?_⟩
    unfold Transaction.stage
    rw [active]
  | ok _ =>
    by_cases current : r.version = expected
    · subst current
      exact .inl ⟨stage_first active unstaged,rfl⟩
    · refine .inr ⟨.error (.versionConflict r.id expected r.version),?_⟩
      unfold Transaction.stage
      simp [active,current]

end Session

namespace Transfer

open View

variable {t : Transfer} {V V' : View} {receipt : Receipt}

def staged (t : Transfer) (source target : Record) (debited credited : Amount) : WriteSet :=
  ((∅ : WriteSet).insert t.source ⟨source.version, debited, 1⟩).insert t.target
    ⟨target.version, credited, 1⟩

theorem staged_lookup (t : Transfer) (source target : Record) (debited credited : Amount) (x : RecordId) :
    (t.staged source target debited credited)[x]? =
      if t.target = x then some ⟨target.version, credited, 1⟩
      else if t.source = x then some ⟨source.version, debited, 1⟩ else none := by
  rw [staged,Std.TreeMap.getElem?_insert,Std.TreeMap.getElem?_insert]
  simp

theorem current_staged {source target : Record} {debited credited : Amount}
    (source_here : V t.source = some source) (target_here : V t.target = some target) :
    Current V (t.staged source target debited credited) := by
  intro x entry found
  rw [staged_lookup] at found
  split at found
  · next same =>
    cases found
    subst same
    exact ⟨target,target_here,rfl⟩
  · split at found
    · next same =>
      cases found
      subst same
      exact ⟨source,source_here,rfl⟩
    · cases found

theorem overlay_staged {source target source' target' : Record} {debited credited : Amount}
    (source_named : source.id = t.source) (target_named : target.id = t.target)
    (source_next : source.next debited = .ok source') (target_next : target.next credited = .ok target') :
    overlay V (t.staged source target debited credited) = (V.set t.source source').set t.target target' := by
  funext x
  rw [Record.next_eq source_next,Record.next_eq target_next,source_named,target_named]
  unfold overlay
  rw [staged_lookup]
  by_cases at_target : t.target = x
  · subst at_target
    rw [if_pos rfl,set_self]
    rfl
  · rw [if_neg at_target,set_other (Ne.symm at_target)]
    by_cases at_source : t.source = x
    · subst at_source
      rw [if_pos rfl,set_self]
      rfl
    · rw [if_neg at_source,set_other (Ne.symm at_source)]


theorem source_ne_target (valid : t.validate = .ok ()) : t.source ≠ t.target := by
  intro same
  unfold validate at valid
  rw [if_pos same] at valid
  cases valid

theorem Moves.later (moves : t.Moves V receipt V') : View.Later V V' := by
  cases moves with
  | intro valid source_here target_here _ _ source_next target_next =>
    have newer {r after : Record} {balance : Amount} (next : r.next balance = .ok after) :
        r.version < after.version := by
      rw [Record.next_eq next]
      exact Nat.lt_succ_self _
    refine (View.later_set source_here (newer source_next)).trans (View.later_set ?_ (newer target_next))
    rw [View.set_other (Ne.symm (source_ne_target valid))]
    exact target_here

theorem Moves.keyed (moves : t.Moves V receipt V') (keyed : V.Keyed) : V'.Keyed := by
  cases moves with
  | intro _ source_here target_here _ _ source_next target_next =>
    have kept {id : RecordId} {r after : Record} {balance : Amount} (here : V id = some r)
        (next : r.next balance = .ok after) : after.id = id := by
      rw [Record.next_eq next]
      exact keyed id r here
    exact (keyed.set (kept source_here source_next)).set (kept target_here target_next)

end Transfer

namespace Operation

variable {o : Operation} {V V' : View} {v : Written}

theorem Achieves.later (achieves : o.Achieves V v V') : View.Later V V' := by
  cases achieves with
  | update here _ next =>
    refine View.later_set here ?_
    rw [Record.next_eq next]
    exact Nat.lt_succ_self _
  | ordered moves | coordinated moves => exact moves.later

theorem Achieves.keyed (achieves : o.Achieves V v V') (keyed : V.Keyed) : V'.Keyed := by
  cases achieves with
  | @update id _ _ before _ _ here _ next =>
    refine keyed.set ?_
    rw [Record.next_eq next]
    exact keyed id before here
  | ordered moves | coordinated moves => exact moves.keyed keyed

end Operation

end VersionedLedger

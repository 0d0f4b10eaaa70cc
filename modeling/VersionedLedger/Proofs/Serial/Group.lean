import VersionedLedger.Proofs.Program.Confined
import VersionedLedger.Proofs.Scenario.Debits
import VersionedLedger.Proofs.Serial.Balance

/-! Transfers among the records of a group, beside workers that leave the group alone. What these do to other records
makes no difference: the records of the group only get newer by transfers, so the sum of their balances stays. -/
namespace VersionedLedger

open Procedure View

variable {α : Type} {ids : Finset RecordId}

namespace View

variable {V V' : View} {writes : WriteSet}

/-- The records of the group, and no others. -/
def on (ids : Finset RecordId) (V : View) : View := fun id => if id ∈ ids then V id else none

theorem on_of_mem {id : RecordId} (inside : id ∈ ids) : V.on ids id = V id := if_pos inside

theorem within_on (ids : Finset RecordId) (V : View) : (V.on ids).Within ids := by
  intro id r here
  by_contra outside
  rw [on,if_neg outside] at here
  cases here

theorem on_congr (same : ∀ id ∈ ids, V' id = V id) : V'.on ids = V.on ids := by
  funext id
  unfold on
  split
  · next inside => exact same id inside
  · rfl

theorem Current.on (current : Current V writes) (confined : ∀ id, id ∉ ids → writes[id]? = none) :
    Current (V.on ids) writes := by
  intro id staged here
  have inside : id ∈ ids := by
    by_contra outside
    cases (confined id outside).symm.trans here
  rw [on_of_mem inside]
  exact current id staged here

theorem overlay_on (confined : ∀ id, id ∉ ids → writes[id]? = none) :
    (overlay V writes).on ids = overlay (V.on ids) writes := by
  funext id
  by_cases inside : id ∈ ids
  · rw [on_of_mem inside,overlay,overlay,on_of_mem inside]
  · rw [View.on,if_neg inside,overlay,confined id inside]
    exact (if_neg inside).symm

/-- The records of the group have got newer at most, and the sum of their balances is the same. -/
structure Kept (ids : Finset RecordId) (V V' : View) : Prop where
  keyed : V'.Keyed
  later : Later V V'
  total : V'.total ids = V.total ids

end View

def Transfer.Done (V : View) (v : Written) (V' : View) : Prop :=
  ∃ (t : Transfer) (receipt : Receipt), v = .transfer receipt ∧ t.Moves V receipt V'

theorem Transfer.Done.kept {V V' : View} {v : Written} (done : Transfer.Done V v V') (keyed : V.Keyed)
    (within : V.Within ids) : Kept ids V V' := by
  obtain ⟨t,receipt,rfl,moves⟩ := done
  refine ⟨moves.keyed keyed,moves.later,?_⟩
  rw [(moves.pays within).total,Int.add_zero]

/-- Records are changed by one transfer at most, and have to do with the group. -/
def Rule.transfers (ids : Finset RecordId) : Rule Seen := (Rule.serial Transfer.Done).confining ids

def Rule.apart (ids : Finset RecordId) : Rule Seen :=
  fun c promise g => (∀ id ∈ ids, c.spares id = true) ∧ ∀ r, promise r g

def Program.Transfers (q : Program α) (ids : Finset RecordId) : Prop :=
  ∀ V, q.Obeys (Rule.transfers ids) (fun _ _ => True) ⟨V, none⟩

theorem Program.obeys_apart {q : Program α} (spared : ∀ id ∈ ids, q.Spares id) (g : Seen) :
    q.Obeys (Rule.apart ids) (fun _ _ => True) g := by
  induction q with
  | done a => trivial
  | call c next ih =>
    exact ⟨fun id member => (spared id member).1,fun r => ih r fun id member => (spared id member).2 r⟩

namespace Ledger

variable {s : Ledger} {c : Call}

theorem on_of_spares (prompt : c.waits = false) (spares : ∀ id ∈ ids, c.spares id = true) :
    (s.answer c).2.store.view.on ids = s.store.view.on ids :=
  on_congr fun id member => s.view_of_spares prompt (spares id member)

theorem named_answer (keyed : (s.store.view.on ids).Keyed) (confined : c.Confined ids) : c.Named (s.answer c).1 := by
  cases c with
  | lookup id =>
    intro found here
    exact keyed id found ((on_of_mem confined).trans here)
  | _ => trivial

theorem transfers_answer {promise : c.Reply → Seen → Prop} {g : Seen} (prompt : c.waits = false)
    (obeys : Rule.transfers ids c promise g) (keyed : (s.store.view.on ids).Keyed)
    (seen : Later g.view (s.store.view.on ids)) : ∃ own, promise (s.answer c).1 own ∧
      Kept ids (s.store.view.on ids) ((s.answer c).2.store.view.on ids) ∧
      Later own.view ((s.answer c).2.store.view.on ids) := by
  obtain ⟨confined,serial⟩ := obeys
  have named := named_answer keyed confined
  have still {own : Seen} (promised : c.Named (s.answer c).1 → promise (s.answer c).1 own)
      (same : (s.answer c).2.store.view = s.store.view) (seen : Later own.view (s.store.view.on ids)) :
      ∃ own, promise (s.answer c).1 own ∧ Kept ids (s.store.view.on ids) ((s.answer c).2.store.view.on ids) ∧
        Later own.view ((s.answer c).2.store.view.on ids) := by
    rw [same]
    exact ⟨own,promised named,⟨keyed,.refl _,rfl⟩,seen⟩
  have quiet (quiet : c.writes = false) : (s.answer c).2.store.view = s.store.view := by
    unfold Store.view
    rw [s.records_answer prompt quiet]
  obtain ⟨V,written⟩ := g
  cases written with
  | some v => exact still (serial.2 _) (quiet serial.1) seen
  | none =>
    cases c with
    | install => exact confined.elim
    | acquire | sleep => cases prompt
    | lookup id =>
      have looked := serial _ seen keyed
      rw [on_of_mem confined] at looked
      exact still looked rfl (.refl _)
    | apply writes =>
      obtain ⟨goes,fails⟩ := serial _ seen keyed
      cases applied : (s.store.apply writes).1 with
      | error e => exact still (applied.symm ▸ fails e) (Store.view_apply_error applied) (.refl _)
      | ok _ =>
        obtain ⟨current,laid⟩ := Store.view_apply_ok applied
        obtain ⟨v,done,promised⟩ := goes (current.on confined)
        have after : (s.answer (.apply writes)).2.store.view.on ids = overlay (s.store.view.on ids) writes := by
          change (s.store.apply writes).2.view.on ids = _
          rw [laid,overlay_on confined]
        rw [after]
        refine ⟨⟨overlay (s.store.view.on ids) writes,some v⟩,?_,done.kept keyed (within_on ids _),.refl _⟩
        change promise (s.store.apply writes).1 _
        rw [applied]
        exact promised trivial
    | _ => exact still (serial _) (quiet rfl) seen

end Ledger

/-- The first workers make transfers in the group, and the others leave it alone. -/
def groupPact (ids : Finset RecordId) (V : View) (count : Nat) : Pact Seen where
  rule i := if i < count then Rule.transfers ids else Rule.apart ids
  holds s g := Kept ids V (s.store.view.on ids) ∧ ∀ i, Later (g i).view (s.store.view.on ids)
  acquires {i owner id timeout existing promise own} obeys answer := by
    split at obeys
    · obtain ⟨_,serial⟩ := obeys
      obtain ⟨V,_ | v⟩ := own
      · exact serial answer trivial
      · exact serial.2 answer trivial
    · exact obeys.2 answer
  sleeps {i d watched promise own} obeys slept _ := by
    split at obeys
    · obtain ⟨_,serial⟩ := obeys
      obtain ⟨V,_ | v⟩ := own
      · exact serial slept trivial
      · exact serial.2 slept trivial
    · exact obeys.2 slept
  elapse _ before := before
  locks _ before := before
  answer {i c promise s g} prompt obeys before := by
    obtain ⟨kept,seen⟩ := before
    split at obeys
    · obtain ⟨own,promised,once_more,own_seen⟩ := Ledger.transfers_answer prompt obeys kept.keyed (seen i)
      refine ⟨own,promised,⟨once_more.keyed,kept.later.trans once_more.later,once_more.total.trans kept.total⟩,fun j => ?_⟩
      by_cases same : j = i
      · subst same
        rwa [Function.update_self]
      · rw [Function.update_of_ne same]
        exact (seen j).trans once_more.later
    · refine ⟨g i,obeys.2 _,?_⟩
      rw [Ledger.on_of_spares prompt obeys.1,Function.update_eq_self]
      exact ⟨kept,seen⟩

/-- Whatever the schedule, and whatever becomes of the transfers, the group has the same total. -/
theorem Pool.group_kept {s : Ledger} (keyed : (s.store.view.on ids).Keyed) {transfers others : List (Program α)}
    (among : ∀ q ∈ transfers, q.Transfers ids) (spared : ∀ q ∈ others, ∀ id ∈ ids, q.Spares id) (moves : List Move) :
    Kept ids (s.store.view.on ids)
      (((start s (transfers ++ others)).play moves).ledger.store.view.on ids) := by
  let V := s.store.view.on ids
  have begins : (start s (transfers ++ others)).Keeps (groupPact ids V transfers.length) (fun _ _ _ => True)
      fun _ => ⟨V,none⟩ := by
    refine keeps_start ⟨⟨keyed,.refl V,rfl⟩,fun _ => .refl V⟩ fun i q named => ?_
    by_cases inside : i < transfers.length
    · rw [List.getElem?_append_left inside] at named
      change q.Obeys (if _ then _ else _) _ _
      rw [if_pos inside]
      exact among q (List.mem_of_getElem? named) V
    · rw [List.getElem?_append_right (Nat.not_lt.mp inside)] at named
      change q.Obeys (if _ then _ else _) _ _
      rw [if_neg inside]
      exact Program.obeys_apart (spared q (List.mem_of_getElem? named)) _
  obtain ⟨g,keeps⟩ := begins.play moves
  exact keeps.holds.1

end VersionedLedger

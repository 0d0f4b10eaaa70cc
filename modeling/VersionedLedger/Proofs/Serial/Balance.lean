import Mathlib.Algebra.BigOperators.Group.Finset.Basic
import Mathlib.Algebra.Ring.Int.Defs
import VersionedLedger.Proofs.Serial.Replay

/-! Money in the records while payments run side by side. Credits and debits change the sum of all balances by
their amounts, transfers do not change it, and no payment takes a balance below zero or further below it. The
balance that a payment has read is still the stored one when it writes, so this holds in every schedule. -/
namespace VersionedLedger

open Procedure View

namespace Account

variable {balance amount result : Amount}

theorem credit_eq_ok :
    credit balance amount = .ok result ↔ 0 < amount.toInt ∧ result.toInt = balance.toInt + amount.toInt := by
  refine ⟨toInt_of_credit,fun ⟨positive,sum⟩ => ?_⟩
  have fits : Amount.add? balance amount = some result := by
    have low := Int64.minValue_le_toInt result
    have high := Int64.toInt_le result
    rw [Amount.add?,← sum,Amount.ofInt?,if_pos ⟨low,high⟩,Int64.ofInt_toInt]
  have positive : ¬ amount ≤ 0 := by simpa [Int64.le_iff_toInt_le] using positive
  rw [credit,if_neg positive,fits]

theorem debit_eq_ok :
    debit balance amount = .ok result ↔
      0 < amount.toInt ∧ amount.toInt ≤ balance.toInt ∧ result.toInt = balance.toInt - amount.toInt := by
  refine ⟨toInt_of_debit,fun ⟨positive,covered,difference⟩ => ?_⟩
  have going : debit balance amount = .ok (balance - amount) := by
    have positive : ¬ amount ≤ 0 := by simpa [Int64.le_iff_toInt_le] using positive
    have covered : ¬ balance < amount := by simpa [Int64.lt_iff_toInt_lt] using covered
    rw [debit,if_neg positive,if_neg covered]
  have same : result = balance - amount := by
    apply Int64.toInt_inj.mp
    rw [difference,(toInt_of_debit going).2.2]
  rw [same,going]

end Account

inductive Payment
  | credit (id : RecordId) (amount : Amount)
  | debit (id : RecordId) (amount : Amount)
  | ordered (l : Locking) (t : Transfer)
  | coordinated (c : DeadlockCoordinator) (t : Transfer)

namespace Payment

def procedure : Payment → Procedure Unit Written
  | credit id amount => do
    let u ← Optimistic.credit id amount
    pure (.update u)
  | debit id amount => do
    let u ← Optimistic.debit id amount
    pure (.update u)
  | ordered l t => do
    let receipt ← t.ordered l
    pure (.transfer receipt)
  | coordinated c t => do
    let receipt ← c.transfer t
    pure (.transfer receipt)

def program (p : Payment) : Program (Outcome Written) := (p.procedure.start ()).bind fun r => .done r.1

/-- What the sum of all balances gains when the payment succeeds. -/
def effect : Payment → Int
  | credit _ amount => amount.toInt
  | debit _ amount => -amount.toInt
  | ordered .. | coordinated .. => 0

def operation : Payment → Operation
  | credit id amount => .update id fun balance => Outcome.ofError (Account.credit balance amount)
  | debit id amount => .update id fun balance => Outcome.ofError (Account.debit balance amount)
  | ordered l t => .ordered l t
  | coordinated c t => .coordinated c t

theorem program_operation (p : Payment) : p.operation.program = p.program := by
  cases p <;> rfl

end Payment

namespace View

variable {V V' V'' : View} {ids : Finset RecordId} {id : RecordId} {r r' : Record}

def worth (V : View) (id : RecordId) : Int := ((V id).map fun r => r.balance.toInt).getD 0

def total (V : View) (ids : Finset RecordId) : Int := ∑ id ∈ ids, V.worth id

theorem worth_of_some (here : V id = some r) : V.worth id = r.balance.toInt := by
  simp [worth,here]

theorem total_set (inside : id ∈ ids) :
    (V.set id r).total ids = V.total ids - V.worth id + r.balance.toInt := by
  have others : ∑ x ∈ ids.erase id, (V.set id r).worth x = ∑ x ∈ ids.erase id, V.worth x := by
    refine Finset.sum_congr rfl fun x member => ?_
    unfold worth
    rw [set_other (Finset.ne_of_mem_erase member)]
  have here : (V.set id r).worth id = r.balance.toInt := worth_of_some set_self
  unfold total
  rw [← Finset.add_sum_erase ids V.worth inside,← Finset.add_sum_erase ids (V.set id r).worth inside,
    others,here]
  omega

def Within (V : View) (ids : Finset RecordId) : Prop := ∀ id r, V id = some r → id ∈ ids

theorem Within.set (within : V.Within ids) (here : V id = some r) : (V.set id r').Within ids := by
  intro x y there
  by_cases same : x = id
  · subst same
    exact within x r here
  · rw [set_other same] at there
    exact within x y there

/-- Records stay; a balance that is not negative stays so, and a negative one does not fall. -/
def Solvent (V V' : View) : Prop := ∀ id r, V id = some r → ∃ r', V' id = some r' ∧
  (0 ≤ r.balance.toInt → 0 ≤ r'.balance.toInt) ∧ (r.balance.toInt < 0 → r.balance.toInt ≤ r'.balance.toInt)

theorem Solvent.refl (V : View) : Solvent V V := fun _ r here => ⟨r,here,fun solvent => solvent,fun _ => Int.le_refl _⟩

theorem Solvent.trans (first : Solvent V V') (second : Solvent V' V'') : Solvent V V'' := by
  intro id r here
  obtain ⟨r',there,covered,owing⟩ := first id r here
  obtain ⟨r'',beyond,covered',owing'⟩ := second id r' there
  refine ⟨r'',beyond,fun solvent => covered' (covered solvent),fun negative => ?_⟩
  have kept := owing negative
  rcases Int.lt_or_le r'.balance.toInt 0 with still | since
  · exact Int.le_trans kept (owing' still)
  · exact Int.le_trans (Int.le_of_lt negative) (covered' since)

theorem solvent_set (here : V id = some r)
    (safe : 0 ≤ r'.balance.toInt ∨ r.balance.toInt ≤ r'.balance.toInt) : Solvent V (V.set id r') := by
  intro x y there
  by_cases same : x = id
  · subst same
    cases here.symm.trans there
    refine ⟨r',set_self,fun solvent => ?_,fun negative => ?_⟩ <;> omega
  · exact ⟨y,(set_other same).trans there,fun solvent => solvent,fun _ => Int.le_refl _⟩

end View

theorem Record.balance_next {r after : Record} {balance : Amount} (written : r.next balance = .ok after) :
    after.balance = balance := by
  rw [Record.next_eq written]

/-- What one payment does to the records: the sum gains `effect`. -/
structure View.Pays (effect : Int) (ids : Finset RecordId) (V V' : View) : Prop where
  total : V'.total ids = V.total ids + effect
  solvent : Solvent V V'
  within : V'.Within ids

namespace View

variable {V : View} {ids : Finset RecordId} {id : RecordId} {r after : Record} {balance amount : Amount}

theorem pays_credit (within : V.Within ids) (here : V id = some r)
    (computed : Account.credit r.balance amount = .ok balance) (next : r.next balance = .ok after) :
    Pays amount.toInt ids V (V.set id after) := by
  obtain ⟨positive,sum⟩ := Account.toInt_of_credit computed
  have balance_eq : after.balance.toInt = r.balance.toInt + amount.toInt := by
    rw [Record.balance_next next,sum]
  refine ⟨?_,solvent_set here (.inr ?_),within.set here⟩
  · rw [total_set (within id r here),worth_of_some here]
    omega
  · omega

theorem pays_debit (within : V.Within ids) (here : V id = some r)
    (computed : Account.debit r.balance amount = .ok balance) (next : r.next balance = .ok after) :
    Pays (-amount.toInt) ids V (V.set id after) := by
  obtain ⟨_,covered,difference⟩ := Account.toInt_of_debit computed
  have balance_eq : after.balance.toInt = r.balance.toInt - amount.toInt := by
    rw [Record.balance_next next,difference]
  refine ⟨?_,solvent_set here (.inl ?_),within.set here⟩
  · rw [total_set (within id r here),worth_of_some here]
    omega
  · omega

theorem Pays.trans {V' V'' : View} {first second : Int} (paid : Pays first ids V V')
    (paid' : Pays second ids V' V'') : Pays (first + second) ids V V'' := by
  refine ⟨?_,paid.solvent.trans paid'.solvent,paid'.within⟩
  rw [paid'.total,paid.total,Int.add_assoc]

end View

theorem Transfer.Moves.pays {t : Transfer} {V V' : View} {ids : Finset RecordId} {receipt : Receipt}
    (moves : t.Moves V receipt V') (within : V.Within ids) : Pays 0 ids V V' := by
  cases moves with
  | @intro source target source' target' _ _ valid source_here target_here debit credit source_next
      target_next =>
    have target_still : V.set t.source source' t.target = some target := by
      rw [set_other (Ne.symm (source_ne_target valid)),target_here]
    have debited := pays_debit within source_here debit source_next
    have paid := debited.trans (pays_credit debited.within target_still credit target_next)
    rwa [Int.add_left_neg] at paid

theorem Payment.pays {p : Payment} {V V' : View} {ids : Finset RecordId} {v : Written}
    (achieves : p.operation.Achieves V v V') (within : V.Within ids) : Pays p.effect ids V V' := by
  have computed {answer : Except Error Amount} {balance : Amount}
      (ok : Outcome.ofError answer = .ok balance) : answer = .ok balance := by
    cases answer with
    | error e => cases ok
    | ok _ =>
      cases ok
      rfl
  cases p with
  | credit id amount =>
    cases achieves with
    | update here ok next => exact pays_credit within here (computed ok) next
  | debit id amount =>
    cases achieves with
    | update here ok next => exact pays_debit within here (computed ok) next
  | ordered l t =>
    cases achieves with
    | ordered moves => exact moves.pays within
  | coordinated c t =>
    cases achieves with
    | coordinated moves => exact moves.pays within

def Payment.effects (payments : List Payment) (workers : List Nat) : Int :=
  (workers.map fun i => (payments[i]?.map Payment.effect).getD 0).sum

theorem Follows.pays {payments : List Payment} {V V' : View} {committed : List (Nat × Written)}
    {ids : Finset RecordId} (follows : Follows (payments.map Payment.operation) V committed V')
    (within : V.Within ids) : Pays (Payment.effects payments (committed.map Prod.fst)) ids V V' := by
  induction follows with
  | start => exact ⟨(Int.add_zero _).symm,.refl V,within⟩
  | @next committed V' V'' i o v _ named achieves ih =>
    rw [List.getElem?_map] at named
    obtain ⟨p,here,rfl⟩ := Option.map_eq_some_iff.mp named
    have paid := ih.trans (p.pays achieves ih.within)
    unfold Payment.effects at paid ⊢
    simpa [here] using paid

theorem Transfer.Moves.unique {t : Transfer} {V V' V'' : View} {receipt receipt' : Receipt}
    (moves : t.Moves V receipt V') (moves' : t.Moves V receipt' V'') : V' = V'' := by
  cases moves with
  | intro _ source_here target_here debit credit source_next target_next =>
    cases moves' with
    | intro _ source_here' target_here' debit' credit' source_next' target_next' =>
      cases source_here.symm.trans source_here'
      cases target_here.symm.trans target_here'
      cases debit.symm.trans debit'
      cases credit.symm.trans credit'
      cases source_next.symm.trans source_next'
      cases target_next.symm.trans target_next'
      rfl

theorem Operation.Achieves.unique {o : Operation} {V V' V'' : View} {v v' : Written}
    (achieves : o.Achieves V v V') (achieves' : o.Achieves V v' V'') : V' = V'' := by
  cases achieves with
  | update here computed next =>
    cases achieves' with
    | update here' computed' next' =>
      cases here.symm.trans here'
      cases computed.symm.trans computed'
      cases next.symm.trans next'
      rfl
  | ordered moves =>
    cases achieves' with
    | ordered moves' => exact moves.unique moves'
  | coordinated moves =>
    cases achieves' with
    | coordinated moves' => exact moves.unique moves'

namespace Follows

variable {ops : List Operation} {V V' V'' : View} {committed more : List (Nat × Written)}

theorem exists_of_concat {i : Nat} {v : Written} (follows : Follows ops V (committed ++ [(i, v)]) V'') :
    ∃ V' o, Follows ops V committed V' ∧ ops[i]? = some o ∧ o.Achieves V' v V'' := by
  generalize all : committed ++ [(i, v)] = whole at follows
  cases follows with
  | start => exact absurd all (List.append_ne_nil_of_right_ne_nil _ (List.cons_ne_nil _ _))
  | next before named achieves =>
    obtain ⟨rfl,last⟩ := List.append_inj' all rfl
    cases last
    exact ⟨_,_,before,named,achieves⟩

theorem unique (follows : Follows ops V committed V') (follows' : Follows ops V committed V'') :
    V' = V'' := by
  induction follows generalizing V'' with
  | start =>
    generalize none : ([] : List (Nat × Written)) = committed at follows'
    cases follows' with
    | start => rfl
    | next => exact absurd none.symm (List.append_ne_nil_of_right_ne_nil _ (List.cons_ne_nil _ _))
  | next _ named achieves ih =>
    obtain ⟨_,_,before,named',achieves'⟩ := exists_of_concat follows'
    cases named.symm.trans named'
    cases ih before
    exact achieves.unique achieves'

theorem after (follows : Follows ops V (committed ++ more) V'') (first : Follows ops V committed V') :
    Follows ops V' more V'' := by
  induction more using List.reverseRecOn generalizing V'' with
  | nil =>
    rw [List.append_nil] at follows
    cases first.unique follows
    exact .start
  | append_singleton more last ih =>
    rw [← List.append_assoc] at follows
    obtain ⟨_,_,before,named,achieves⟩ := exists_of_concat follows
    exact .next (ih before) named achieves

end Follows

namespace Store

def total (s : Store) : Int := (s.records.toList.map fun entry => entry.2.balance.toInt).sum

def idSet (s : Store) : Finset RecordId := s.records.keys.toFinset

theorem within_idSet (s : Store) : s.view.Within s.idSet := by
  intro id r here
  change s.records[id]? = some r at here
  rw [idSet,List.mem_toFinset,Std.TreeMap.mem_keys,Std.TreeMap.mem_iff_isSome_getElem?,here]
  rfl

theorem total_eq {s : Store} {ids : Finset RecordId} (within : s.view.Within ids) :
    s.total = s.view.total ids := by
  have outside (id : RecordId) (absent : id ∉ s.idSet) : s.view.worth id = 0 := by
    cases here : s.view id with
    | none => simp [worth,here]
    | some r => exact absurd (s.within_idSet id r here) absent
  have inside : s.idSet ⊆ ids := by
    intro id member
    rw [idSet,List.mem_toFinset,Std.TreeMap.mem_keys] at member
    exact within id _ (Std.TreeMap.getElem?_eq_some_getElem member)
  have distinct : s.records.keys.Nodup := Std.TreeMap.nodup_keys
  have listed : s.records.toList.map (fun entry => entry.2.balance.toInt) =
      s.records.keys.map s.view.worth := by
    rw [← Std.TreeMap.map_fst_toList_eq_keys,List.map_map]
    refine List.map_congr_left fun entry member => ?_
    have here : s.view entry.1 = some entry.2 := Std.TreeMap.mem_toList_iff_getElem?_eq_some.mp member
    rw [Function.comp_apply,worth_of_some here]
  rw [total,listed,View.total,← Finset.sum_subset inside fun id _ absent => outside id absent]
  exact (List.sum_toFinset s.view.worth distinct).symm

end Store

namespace Pool

variable {α : Type} {p q : Pool (Outcome Written)}

theorem writers_append (p : Pool α) (before after : List Move) :
    p.writers (before ++ after) = p.writers before ++ (p.play before).writers after := by
  induction before generalizing p with
  | nil => rfl
  | cons m before ih =>
    change (p.writer? m).toList ++ (p.move m).writers (before ++ after) = _
    rw [ih,← List.append_assoc]
    rfl

/-- A payment forms a sum or a difference only if it is the one of the integers; between any two states of a run a
balance that is not negative stays so and one that is negative does not fall; and the sum of all balances is
the first one with the credits added and the debits taken away that have been written so far. -/
theorem balances_kept {s : Ledger} {balances : List (RecordId × Amount)}
    (seeded : s.store.records = (Store.seeded balances).records) (payments : List Payment)
    (before after : List Move) (reached : (start s (payments.map Payment.program)).play before = p)
    (onward : p.play after = q) :
    (∀ balance amount result, Account.credit balance amount = .ok result ↔
      0 < amount.toInt ∧ result.toInt = balance.toInt + amount.toInt) ∧
    (∀ balance amount result, Account.debit balance amount = .ok result ↔
      0 < amount.toInt ∧ amount.toInt ≤ balance.toInt ∧
        result.toInt = balance.toInt - amount.toInt) ∧
    (∀ (id : RecordId) r, p.ledger.store.records[id]? = some r →
      ∃ r', q.ledger.store.records[id]? = some r' ∧
        (0 ≤ r.balance.toInt → 0 ≤ r'.balance.toInt) ∧
        (r.balance.toInt < 0 → r.balance.toInt ≤ r'.balance.toInt)) ∧
    q.ledger.store.total = s.store.total +
      Payment.effects payments ((start s (payments.map Payment.program)).writers (before ++ after)) := by
  subst reached onward
  have keyed : s.store.view.Keyed := by
    unfold Store.view
    rw [seeded]
    exact Store.keyed_seeded balances
  have programs : (payments.map Payment.operation).map Operation.program = payments.map Payment.program := by
    rw [List.map_map]
    exact List.map_congr_left fun payment _ => payment.program_operation
  have started := serial_start keyed (payments.map Payment.operation)
  rw [programs] at started
  obtain ⟨committed,order,serial⟩ := started.play before
  obtain ⟨more,order',serial'⟩ := serial.play after
  rw [List.nil_append] at serial serial'
  have within := s.store.within_idSet
  have paid := serial.follows.pays within
  have later := (serial'.follows.after serial.follows).pays paid.within
  have whole := serial'.follows.pays within
  refine ⟨fun _ _ _ => Account.credit_eq_ok,fun _ _ _ => Account.debit_eq_ok,later.solvent,?_⟩
  rw [Store.total_eq whole.within,Store.total_eq within,writers_append,whole.total,List.map_append,order,order']

def fourPayments : List Payment :=
  [.credit 1 20,.debit 2 10,.ordered { timeout := 1000 } ⟨2,1,30⟩,.credit 1 7]

def transferFirst : List Move :=
  .step 0 :: List.replicate 20 (.step 2) ++ List.replicate 9 (.step 0)

def debitAndCredit : List Move := List.replicate 9 (.step 1) ++ List.replicate 9 (.step 3)

/-- The overtaken credit adds nothing. -/
theorem balances_kept_transferFirst :
    ((start { store := .seeded [(1, -5),(2, 50)] } (fourPayments.map Payment.program)).play
      (transferFirst ++ debitAndCredit)).ledger.store.total = 45 - 10 + 7 := by
  have changed : (start { store := .seeded [(1, -5),(2, 50)] } (fourPayments.map Payment.program)).writers
      (transferFirst ++ debitAndCredit) = [2,1,3] := by decide +kernel
  have first : (Store.seeded [(1, -5),(2, 50)]).total = 45 := by decide +kernel
  have sum : Payment.effects fourPayments [2,1,3] = -10 + 7 := by decide +kernel
  have kept := balances_kept (s := { store := .seeded [(1, -5),(2, 50)] }) rfl fourPayments transferFirst
    debitAndCredit rfl rfl
  rw [play_append,kept.2.2.2,changed,first,sum]
  rfl

end Pool

end VersionedLedger

import VersionedLedger.Proofs.Serial.Faltering
import VersionedLedger.Proofs.Store.Requests

/-! Two ways to carry out a transfer, held against one account of what it comes to. Where nobody else holds the two
locks, every request for one is granted as long as the records exist; so the order of the requests shows in nothing
but which of two missing records is named, and no attempt is ever repeated. -/
namespace VersionedLedger

open Procedure View

variable {σ : Type}

structure Settlement where
  answer : Except Error Receipt
  records : View
  faults : Faults

/-- What a transfer comes to. Of two records that are missing, the one asked for first is named. -/
def Transfer.settle (t : Transfer) (first : RecordId) (V : View) (f : Faults) : Settlement :=
  if t.source = t.target then
    ⟨.error (.validation s!"cannot transfer from {t.source.text} to itself"), V, f⟩
  else if t.amount ≤ 0 then
    ⟨.error (.validation s!"transfer amount must be positive, got {t.amount}"), V, f⟩
  else match V t.source, V t.target with
    | none, none => ⟨.error (.notFound first), V, f⟩
    | none, some _ => ⟨.error (.notFound t.source), V, f⟩
    | some _, none => ⟨.error (.notFound t.target), V, f⟩
    | some source, some target =>
      if source.balance < t.amount then
        ⟨.error (.validation s!"insufficient funds: balance={source.balance}, debit={t.amount}"), V, f⟩
      else if Int64.maxValue.toInt < target.balance.toInt + t.amount.toInt then
        ⟨.error (.validation s!"credit of {t.amount} overflows balance"), V, f⟩
      else if f.fails 0 then
        ⟨.error (.unavailable "injected fault during commit"), V, f.spend 1⟩
      else
        let debited : Record := ⟨t.source, source.balance - t.amount, source.version + 1⟩
        let credited : Record := ⟨t.target, target.balance + t.amount, target.version + 1⟩
        ⟨.ok ⟨t, debited.balance, credited.balance, debited.version, credited.version⟩,
          (V.set t.source debited).set t.target credited, f.spend 1⟩

namespace Settlement

def Left (m : Settlement) (s : Store) : Prop := s.view = m.records ∧ s.faults = m.faults

def Reached (m : Settlement) (answer : Outcome Receipt) (left : Ledger) : Prop :=
  answer = .ofError m.answer ∧ m.Left left.store

end Settlement

namespace Account

variable {balance amount : Amount}

theorem debit_of_pos (positive : ¬ amount ≤ 0) : debit balance amount =
    if balance < amount then .error (.validation s!"insufficient funds: balance={balance}, debit={amount}")
    else .ok (balance - amount) := if_neg positive

theorem credit_of_pos (positive : ¬ amount ≤ 0) : credit balance amount =
    if Int64.maxValue.toInt < balance.toInt + amount.toInt then
      .error (.validation s!"credit of {amount} overflows balance")
    else .ok (balance + amount) := by
  have low := Int64.minValue_le_toInt balance
  have added : Int64.ofInt (balance.toInt + amount.toInt) = balance + amount := by
    rw [Int64.ofInt_add,Int64.ofInt_toInt,Int64.ofInt_toInt]
  rw [credit,if_neg positive,Amount.add?,Amount.ofInt?,added]
  rw [Int64.le_iff_toInt_le,Int64.toInt_zero] at positive
  by_cases large : Int64.maxValue.toInt < balance.toInt + amount.toInt
  · rw [if_pos large,if_neg fun fits => absurd large (Int.not_lt.mpr fits.2)]
  · rw [if_neg large,if_pos ⟨by omega,Int.not_lt.mp large⟩]

end Account

namespace Transfer

variable {t : Transfer} {V : View} {f : Faults} {first : RecordId} {source target : Record}

theorem settle_of_refused {e : Error} (refused : t.validate = .error e) : t.settle first V f = ⟨.error e, V, f⟩ := by
  unfold validate at refused
  unfold settle
  split at refused
  · next same =>
    cases refused
    rw [if_pos same]
  · next apart =>
    rw [if_neg apart]
    split at refused
    · next low =>
      cases refused
      rw [if_pos low]
    · cases refused

theorem valid_iff : t.validate = .ok () ↔ t.source ≠ t.target ∧ ¬ t.amount ≤ 0 := by
  unfold validate
  by_cases same : t.source = t.target
  · simp [same]
  · by_cases low : t.amount ≤ 0 <;> simp [same,low]

/-- The two records in the order in which they are asked for. -/
def Asks (t : Transfer) (first : RecordId) (ids : List RecordId) : Prop :=
  first = t.source ∧ ids = [t.source,t.target] ∨ first = t.target ∧ ids = [t.target,t.source]

theorem Asks.mem_iff {ids : List RecordId} (asks : t.Asks first ids) (id : RecordId) : id ∈ ids ↔ id ∈ t.ids := by
  obtain ⟨_,rfl⟩ | ⟨_,rfl⟩ := asks
  · rfl
  · simp [Transfer.ids,or_comm]

theorem settle_of_missing (valid : t.validate = .ok ()) {ids : List RecordId} {id : RecordId} (asks : t.Asks first ids)
    (missed : ids.find? (fun x => (V x).isNone) = some id) : t.settle first V f = ⟨.error (.notFound id), V, f⟩ := by
  obtain ⟨apart,positive⟩ := valid_iff.mp valid
  unfold settle
  rw [if_neg apart,if_neg positive]
  obtain ⟨rfl,rfl⟩ | ⟨rfl,rfl⟩ := asks <;> cases here : V t.source <;> cases there : V t.target <;>
    simp_all

theorem settle_of_present (valid : t.validate = .ok ()) (here : V t.source = some source)
    (there : V t.target = some target) : t.settle first V f =
      match Account.debit source.balance t.amount, Account.credit target.balance t.amount with
      | .error e, _ | .ok _, .error e => ⟨.error e, V, f⟩
      | .ok debited, .ok credited =>
        if f.fails 0 then ⟨.error (.unavailable "injected fault during commit"), V, f.spend 1⟩
        else ⟨.ok ⟨t, debited, credited, source.version + 1, target.version + 1⟩,
          (V.set t.source ⟨t.source, debited, source.version + 1⟩).set t.target
            ⟨t.target, credited, target.version + 1⟩, f.spend 1⟩ := by
  obtain ⟨apart,positive⟩ := valid_iff.mp valid
  unfold settle
  rw [if_neg apart,if_neg positive,here,there,Account.debit_of_pos positive,Account.credit_of_pos positive]
  dsimp only
  split
  · rfl
  · split <;> rfl

theorem settle_fatal {e : Error} (failed : (t.settle first V f).answer = .error e) : e.isDeadlock = false := by
  unfold settle at failed
  grind [Error.isDeadlock]

end Transfer

variable {s : Ledger} {V : View} {f : Faults} {owner : TxnId} {ids : List RecordId}

namespace Session

variable {t : Transaction}

theorem reached_conclude_error (e : Error) (t : Transaction) (opened : s.store.Open V f owner ids) :
    (conclude (.error (.error e) : Outcome Receipt)).Obeys Rule.alone
      (fun answer _ left => (⟨.error e, V, f⟩ : Settlement).Reached answer left) t s :=
  Obeys.of_only Rule.alone_keeps_shown (gives_conclude_error (.error e)) ⟨opened.view,opened.faults⟩

theorem reached_conclude_ok (receipt : Receipt) (active : t.ensureActive = .ok ())
    (pending : t.writes.isEmpty = false) (current : Current V t.writes) (never : f.rate = 0)
    (opened : s.store.Open V f owner ids) : (conclude (.ok receipt)).Obeys Rule.alone (fun answer _ left =>
      (if f.fails 0 then ⟨.error (.unavailable "injected fault during commit"), V, f.spend 1⟩
        else ⟨.ok receipt, overlay V t.writes, f.spend 1⟩ : Settlement).Reached answer left) t s := by
  have faults : s.store.faults = f.spend 0 := by rw [opened.faults,Faults.spend_zero]
  rw [← opened.view] at current
  dsimp only [conclude]
  rw [obeys_bind]
  refine (alone_commit_checked active pending current never faults).mono Rule.alone_monotone ?_
  intro answer after left ended
  obtain ⟨spent,_,failed,passed⟩ := ended
  rw [opened.view] at failed passed
  cases due : f.fails 0 with
  | true =>
    obtain ⟨rfl,unchanged⟩ := failed due
    exact ⟨rfl,unchanged,spent⟩
  | false =>
    obtain ⟨rfl,written⟩ := passed due
    exact ⟨rfl,written,spent⟩

end Session

namespace Transfer

variable {t : Transfer} {first : RecordId}

theorem reached_stage (opened : s.store.Open V f owner ids) (never : f.rate = 0) (valid : t.validate = .ok ())
    (keyed : V.Keyed) {source target : Record} (here : V t.source = some source) (there : V t.target = some target)
    (source_room : source.version + 1 < Version.limit) (target_room : target.version + 1 < Version.limit)
    {own : Transaction} (active : own.ensureActive = .ok ()) (clean : own.writes = ∅) :
    t.stage.Obeys Rule.alone (fun answer own left => (Session.conclude answer).Obeys Rule.alone
      (fun answer _ left => (t.settle first V f).Reached answer left) own left) own s := by
  rw [settle_of_present valid here there]
  refine (alone_staged (source_ne_target valid) keyed active clean opened.view here there source_room
    target_room).mono Rule.alone_monotone fun answer after left ended => ?_
  obtain ⟨rfl,ended⟩ := ended
  cases debit : Account.debit source.balance t.amount with
  | error e =>
    rw [debit] at ended
    subst ended
    exact Session.reached_conclude_error e after opened
  | ok debited =>
    cases credit : Account.credit target.balance t.amount with
    | error e =>
      rw [debit,credit] at ended
      subst ended
      exact Session.reached_conclude_error e after opened
    | ok credited =>
      rw [debit,credit] at ended
      obtain ⟨rfl,rfl⟩ := ended
      let after : Transaction := { own with writes := t.staged source target debited credited }
      have still : after.ensureActive = .ok () := active
      have laid : overlay V (t.staged source target debited credited) =
          (V.set t.source ⟨t.source, debited, source.version + 1⟩).set t.target
            ⟨t.target, credited, target.version + 1⟩ := by
        rw [overlay_staged (keyed _ _ here) (keyed _ _ there) (Record.next_of_room source_room)
          (Record.next_of_room target_room),keyed _ _ here,keyed _ _ there]
      dsimp only
      rw [← laid]
      exact Session.reached_conclude_ok _ still Std.TreeMap.isEmpty_insert (current_staged here there) never opened

theorem reached_run (l : Locking) (own : σ) (valid : t.validate = .ok ()) (keyed : V.Keyed) (asks : t.Asks first ids)
    (opened : s.store.Open V f s.store.nextTxn t.ids) (never : f.rate = 0)
    (room : ∀ id ∈ t.ids, ∀ r, V id = some r → r.version + 1 < Version.limit) :
    (l.run ids t.stage).Obeys Rule.alone
      (fun answer _ left => (t.settle first V f).Reached answer left) own s := by
  unfold Locking.run withTransaction
  rw [obeys_bind,obeys_perform]
  refine Rule.alone_of_reply (r := s.store.nextTxn) rfl ?_
  dsimp only
  rw [obeys_bind,obeys_within,obeys_bind,obeys_outcome,obeys_bind]
  have begun : (s.answer .begin).2.store.Open V f s.store.nextTxn ids :=
    ⟨opened.view,opened.faults,fun id member => opened.free id ((asks.mem_iff id).mp member)⟩
  have asked := l.alone_acquireAll_open (t := .start s.store.nextTxn) rfl rfl begun
  refine asked.mono Rule.alone_monotone fun answer after left ended => ?_
  obtain ⟨opened,ended⟩ := ended
  cases missed : ids.find? fun x => (V x).isNone with
  | some id =>
    rw [missed] at ended
    subst ended
    rw [settle_of_missing valid asks missed]
    exact Session.reached_conclude_error (.notFound id) after opened
  | none =>
    rw [missed] at ended
    obtain ⟨rfl,active,clean⟩ := ended
    have present (id : RecordId) (member : id ∈ t.ids) : ∃ r, V id = some r := by
      have found := List.find?_eq_none.mp missed id ((asks.mem_iff id).mpr member)
      rw [Option.isNone_iff_eq_none] at found
      exact Option.ne_none_iff_exists'.mp found
    have sends : t.source ∈ t.ids := List.mem_cons_self
    have takes : t.target ∈ t.ids := List.mem_cons_of_mem _ List.mem_cons_self
    obtain ⟨source,here⟩ := present t.source sends
    obtain ⟨target,there⟩ := present t.target takes
    exact reached_stage opened never valid keyed here there (room _ sends source here) (room _ takes target there)
      active clean

theorem asks_ascending (apart : t.source ≠ t.target) :
    t.Asks (min t.source t.target) (Locking.ascending t.ids) := by
  rcases Nat.lt_or_gt_of_ne apart with less | more
  · exact .inl ⟨Nat.min_eq_left (Nat.le_of_lt less),by simp [Locking.ascending,Locking.insertAscending,ids,less]⟩
  · refine .inr ⟨Nat.min_eq_right (Nat.le_of_lt more),?_⟩
    simp [Locking.ascending,Locking.insertAscending,ids,Nat.lt_asymm more,Nat.ne_of_gt more]

theorem asks_requestOrder (apart : t.source ≠ t.target) : t.Asks t.source (Locking.requestOrder t.ids) := by
  have other : (t.target == t.source) = false := by simp [Ne.symm apart]
  exact .inl ⟨rfl,by simp [Locking.requestOrder,ids,List.eraseDups_cons,other]⟩

theorem reached_ordered (l : Locking) (own : σ) (keyed : V.Keyed) (opened : s.store.Open V f s.store.nextTxn t.ids)
    (never : f.rate = 0) (room : ∀ id ∈ t.ids, ∀ r, V id = some r → r.version + 1 < Version.limit) :
    (t.ordered l).Obeys Rule.alone
      (fun answer _ left => (t.settle (min t.source t.target) V f).Reached answer left) own s := by
  unfold ordered
  rw [obeys_bind,obeys_ofError]
  cases valid : t.validate with
  | error e =>
    rw [settle_of_refused valid]
    exact ⟨rfl,opened.view,opened.faults⟩
  | ok _ =>
    dsimp only [Outcome.ofError]
    exact reached_run l own valid keyed (asks_ascending (source_ne_target valid)) opened never room

theorem reached_attempt (c : DeadlockCoordinator) (own : σ) (valid : t.validate = .ok ()) (keyed : V.Keyed)
    (opened : s.store.Open V f s.store.nextTxn t.ids) (never : f.rate = 0)
    (room : ∀ id ∈ t.ids, ∀ r, V id = some r → r.version + 1 < Version.limit) :
    (c.attempt t).Obeys Rule.alone (fun answer _ left => ∃ given, answer = .ofError given ∧
      (∀ e, given = .error e → DeadlockCoordinator.classify e = .fatal) ∧
        given = (t.settle t.source V f).answer ∧ (t.settle t.source V f).Left left.store) own s := by
  have asks := asks_requestOrder (source_ne_target valid)
  simp only [DeadlockCoordinator.attempt,requested,Locking.withLocksInRequestOrder,obeys_bind,obeys_outcome]
  refine (reached_run c.locking own valid keyed asks opened never room).mono Rule.alone_monotone ?_
  intro answer own left reached
  obtain ⟨rfl,stored⟩ := reached
  cases given : (t.settle t.source V f).answer with
  | error e =>
    have other : e.isDeadlock = false := settle_fatal given
    simp only [Outcome.ofError,other,Bool.false_eq_true,if_false]
    refine ⟨.error e,rfl,fun e' same => ?_,rfl,stored⟩
    cases same
    simp [DeadlockCoordinator.classify,other]
  | ok receipt =>
    refine ⟨.ok receipt,rfl,fun e failed => ?_,rfl,stored⟩
    cases failed

theorem reached_coordinated (c : DeadlockCoordinator) (own : σ) (keyed : V.Keyed)
    (opened : s.store.Open V f s.store.nextTxn t.ids) (never : f.rate = 0)
    (room : ∀ id ∈ t.ids, ∀ r, V id = some r → r.version + 1 < Version.limit) :
    (c.transfer t).Obeys Rule.alone
      (fun answer _ left => (t.settle t.source V f).Reached answer left) own s := by
  unfold DeadlockCoordinator.transfer
  rw [obeys_bind,obeys_ofError]
  cases valid : t.validate with
  | error e =>
    rw [settle_of_refused valid]
    exact ⟨rfl,opened.view,opened.faults⟩
  | ok _ =>
    dsimp only [Outcome.ofError]
    let before (s : Store) : Prop := s.Open V f s.nextTxn t.ids
    let ends (given : Except Error Receipt) (s : Store) : Prop :=
      given = (t.settle t.source V f).answer ∧ (t.settle t.source V f).Left s
    rw [obeys_bind]
    unfold RetryPolicy.run
    rw [obeys_bind,obeys_perform]
    refine Rule.alone_keeps before .now rfl _ s opened fun now s opened => ?_
    refine (c.policy.obeys_loop_once Rule.alone_monotone (Rule.alone_keeps before)
      (fun given => Rule.alone_keeps (ends given)) rfl
      (fun own s opened => reached_attempt c own valid keyed opened never room) _ _ opened).mono Rule.alone_monotone ?_
    intro answer own left ended
    obtain ⟨r,rfl,same,stored⟩ | ⟨n,e,rfl,same,stored⟩ := ended
    · exact ⟨congrArg Outcome.ofError same,stored⟩
    · exact ⟨congrArg Outcome.ofError same,stored⟩

theorem settle_alike (t : Transfer) (V : View) (f : Faults) (first other : RecordId) :
    let m := t.settle first V f
    let n := t.settle other V f
    m.records = n.records ∧ m.faults = n.faults ∧ (m.answer = n.answer ∨ V t.source = none ∧ V t.target = none ∧
      m.answer = .error (.notFound first) ∧ n.answer = .error (.notFound other)) := by
  intro m n
  cases valid : t.validate with
  | error e =>
    have same : m = n := (settle_of_refused valid).trans (settle_of_refused valid).symm
    rw [same]
    exact ⟨rfl,rfl,.inl rfl⟩
  | ok _ =>
    obtain ⟨apart,positive⟩ := valid_iff.mp valid
    cases here : V t.source <;> cases there : V t.target
    · simp [m,n,settle,apart,positive,here,there]
    all_goals
      have same : m = n := by simp [m,n,settle,apart,positive,here,there]
      rw [same]
      exact ⟨rfl,rfl,.inl rfl⟩

theorem toInt_of_settle {receipt : Receipt} (settled : (t.settle first V f).answer = .ok receipt) :
    ∃ source target, V t.source = some source ∧ V t.target = some target ∧
      receipt.sourceBalance.toInt = source.balance.toInt - t.amount.toInt ∧
      receipt.targetBalance.toInt = target.balance.toInt + t.amount.toInt := by
  cases valid : t.validate with
  | error e =>
    rw [settle_of_refused valid] at settled
    cases settled
  | ok _ =>
    obtain ⟨apart,positive⟩ := valid_iff.mp valid
    cases here : V t.source with
    | none => cases there : V t.target <;> simp [settle,apart,positive,here,there] at settled
    | some source =>
      cases there : V t.target with
      | none => simp [settle,apart,positive,here,there] at settled
      | some target =>
        rw [settle_of_present valid here there] at settled
        cases debit : Account.debit source.balance t.amount with
        | error e => simp [debit] at settled
        | ok debited =>
          cases credit : Account.credit target.balance t.amount with
          | error e => simp [debit,credit] at settled
          | ok credited =>
            simp only [debit,credit] at settled
            split at settled <;> cases settled
            exact ⟨source,target,rfl,rfl,(Account.toInt_of_debit debit).2.2,(Account.toInt_of_credit credit).2⟩

/-- Under ascending locks and in request order a transfer comes to the same, up to the name of a record where both
are missing. Other locks may be taken, and faults be due; but nobody else has the two locks. -/
theorem settles_either_way (t : Transfer) (l : Locking) (c : DeadlockCoordinator) (own : σ) {s : Ledger}
    (keyed : s.store.view.Keyed) (free : ∀ id ∈ t.ids, s.store.locks.table.heldByOther s.store.nextTxn id = false)
    (room : ∀ id ∈ t.ids, ∀ r, s.store.view id = some r → r.version + 1 < Version.limit)
    (never : s.store.faults.rate = 0) :
    let settled (first : RecordId) := t.settle first s.store.view s.store.faults
    let ordered := s.run ((t.ordered l).start own)
    let coordinated := s.run ((c.transfer t).start own)
    (settled (min t.source t.target)).Reached ordered.1.1 ordered.2 ∧
    (settled t.source).Reached coordinated.1.1 coordinated.2 ∧
    (∀ x : RecordId, ordered.2.store.records[x]? = coordinated.2.store.records[x]?) ∧
    ordered.2.store.faults = coordinated.2.store.faults ∧
    (ordered.1.1 = coordinated.1.1 ∨ s.store.view t.source = none ∧ s.store.view t.target = none ∧
      ordered.1.1 = .error (.error (.notFound (min t.source t.target))) ∧
      coordinated.1.1 = .error (.error (.notFound t.source))) ∧
    ∀ receipt, ordered.1.1 = .ok receipt → ∃ source target,
      s.store.view t.source = some source ∧ s.store.view t.target = some target ∧
      receipt.sourceBalance.toInt = source.balance.toInt - t.amount.toInt ∧
      receipt.targetBalance.toInt = target.balance.toInt + t.amount.toInt := by
  intro settled ordered coordinated
  have opened : s.store.Open s.store.view s.store.faults s.store.nextTxn t.ids := ⟨rfl,rfl,free⟩
  have least : (settled (min t.source t.target)).Reached ordered.1.1 ordered.2 :=
    (Program.obeys_alone _ _ _).mp (reached_ordered l own keyed opened never room)
  have source : (settled t.source).Reached coordinated.1.1 coordinated.2 :=
    (Program.obeys_alone _ _ _).mp (reached_coordinated c own keyed opened never room)
  obtain ⟨records,spent,answers⟩ := t.settle_alike s.store.view s.store.faults (min t.source t.target) t.source
  refine ⟨least,source,?_⟩
  obtain ⟨answered,view,faults⟩ := least
  obtain ⟨answered',view',faults'⟩ := source
  refine ⟨congrFun (view.trans (records.trans view'.symm)),faults.trans (spent.trans faults'.symm),?_,
    fun receipt moved => ?_⟩
  · rw [answered,answered']
    obtain same | ⟨here,there,missed,missed'⟩ := answers
    · exact .inl (congrArg Outcome.ofError same)
    · exact .inr ⟨here,there,congrArg Outcome.ofError missed,congrArg Outcome.ofError missed'⟩
  · rw [answered] at moved
    cases given : (settled (min t.source t.target)).answer with
    | error e =>
      rw [given] at moved
      cases moved
    | ok _ =>
      rw [given] at moved
      cases moved
      exact toInt_of_settle given

/-- Record 4 is locked by another transaction, and of the next two commits the second one meets a fault. -/
def halfFaulty : Ledger :=
  { Locking.oneHeld with store := { Locking.oneHeld.store with faults := { script := [false,true] } } }

theorem settles_either_way_halfFaulty :
    let c : DeadlockCoordinator := .ofConfig {} {}
    let ordered := halfFaulty.run ((Transfer.ordered { timeout := 1000 } ⟨3, 1, 7⟩).start ())
    let coordinated := halfFaulty.run ((c.transfer ⟨3, 1, 7⟩).start ())
    ordered.1.1 = .ok ⟨⟨3, 1, 7⟩, 0, 107, 1, 1⟩ ∧ coordinated.1.1 = .ok ⟨⟨3, 1, 7⟩, 0, 107, 1, 1⟩ ∧
    coordinated.2.store.records[(1 : RecordId)]? = some ⟨1, 107, 1⟩ ∧ coordinated.2.store.faults.script = [true] ∧
    (halfFaulty.run ((Transfer.ordered { timeout := 1000 } ⟨9, 8, 7⟩).start ())).1.1 = .error (.error (.notFound 8)) ∧
    (halfFaulty.run ((c.transfer ⟨9, 8, 7⟩).start ())).1.1 = .error (.error (.notFound 9)) := by
  intro c ordered coordinated
  have keyed : halfFaulty.store.view.Keyed := Store.keyed_seeded [(1, 100),(2, 50),(3, 7),(4, 0)]
  have room (id : RecordId) (r : Record) (here : halfFaulty.store.view id = some r) :
      r.version + 1 < Version.limit := by
    have seeded : (Store.seeded [(1, 100),(2, 50),(3, 7),(4, 0)]).view id = some r := here
    obtain ⟨balance,rfl⟩ := Store.fresh_of_seeded seeded
    change 0 + 1 < Version.limit
    decide
  obtain ⟨⟨moved,_⟩,⟨moved',records,spent⟩,_⟩ := settles_either_way ⟨3, 1, 7⟩ { timeout := 1000 } c () keyed
    (by decide +kernel) (fun id _ => room id) rfl
  obtain ⟨⟨missed,_⟩,⟨missed',_⟩,_⟩ := settles_either_way ⟨9, 8, 7⟩ { timeout := 1000 } c () keyed
    (by decide +kernel) (fun id _ => room id) rfl
  refine ⟨moved.trans (by decide +kernel),moved'.trans (by decide +kernel),
    (congrFun records 1).trans (by decide +kernel),?_,missed.trans (by decide +kernel),
    missed'.trans (by decide +kernel)⟩
  rw [spent]
  decide +kernel

end Transfer

end VersionedLedger

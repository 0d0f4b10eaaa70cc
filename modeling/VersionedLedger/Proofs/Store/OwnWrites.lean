import VersionedLedger.Proofs.Store.Finished
import VersionedLedger.Proofs.Store.Versions

/-! What a transaction sees of its own writes. The record that its last write promised is what it reads from then on,
whatever others commit meanwhile, and what is stored once it has committed. No version runs out in fewer calls than
there are versions. -/
namespace VersionedLedger

open View

namespace Answered

variable {log : List Answered} {m : Answered} {n : Nat} {id : RecordId}

/-- What a write of the record in the transaction has promised. -/
def wrote? (n : Nat) (id : RecordId) : Answered → Option Record
  | (.write m x _ _, .record (.ok after)) => if m = n ∧ x = id then some after else none
  | _ => none

def lastWrite? (log : List Answered) (n : Nat) (id : RecordId) : Option Record :=
  (log.filterMap (wrote? n id)).getLast?

theorem wrote?_of_unwritten (unwritten : m.writes n id = false) : m.wrote? n id = none := by
  unfold wrote?
  split
  · next other _ _ _ =>
    have differs : ¬ (_ = n ∧ _ = id) := of_decide_eq_false unwritten
    exact if_neg differs
  · rfl

theorem lastWrite?_concat :
    lastWrite? (log ++ [m]) n id = (m.wrote? n id).or (lastWrite? log n id) := by
  unfold lastWrite?
  cases written : m.wrote? n id <;> simp [written]

end Answered

namespace Transaction

variable {t : Transaction} {V : View} {id x : RecordId} {seen : Record} {balance : Amount}

theorem reads_cases (reads : t.reads V id = .ok seen) : t.status = .active ∧ ∃ stored, V id = some stored ∧
    ((∃ entry, t.writes[stored.id]? = some entry ∧ seen = ⟨stored.id, entry.balance, entry.version⟩) ∨
      t.writes[stored.id]? = none ∧ seen = stored) := by
  unfold Transaction.reads at reads
  split at reads
  · cases reads
  · cases reads
  · next stored active here =>
    refine ⟨ensureActive_eq_ok.mp active,stored,here,?_⟩
    unfold Transaction.view at reads
    split at reads
    · next entry found =>
      unfold StagedWrite.version? Version.add? at reads
      split at reads
      · cases reads
        exact .inl ⟨entry,found,rfl⟩
      · cases reads
    · next found =>
      cases reads
      exact .inr ⟨found,rfl⟩

theorem reads_of_staged {stored : Record} {entry : StagedWrite} (active : t.status = .active)
    (here : V id = some stored) (found : t.writes[stored.id]? = some entry) (low : entry.version < Version.limit) :
    t.reads V id = .ok ⟨stored.id, entry.balance, entry.version⟩ := by
  have fits : entry.version? = .ok entry.version := by
    rw [StagedWrite.version?,Version.add?]
    exact congrArg (Outcome.ofChecked .sumOverflow) (if_pos low)
  unfold Transaction.reads
  rw [ensureActive_eq_ok.mpr active,here]
  simp only [Transaction.view,found,fits]
  rfl

variable (balance) in
theorem stageOver_self (reads : t.reads V id = .ok seen) :
    ∃ entry, (t.stageOver seen balance)[seen.id]? = some entry ∧ entry.balance = balance ∧
      entry.version = seen.version + 1 := by
  obtain ⟨_,stored,_,⟨entry,found,rfl⟩ | ⟨none,rfl⟩⟩ := reads_cases reads
  · refine ⟨{ entry with balance, writes := entry.writes + 1 },?_,rfl,rfl⟩
    simp [stageOver,found]
  · refine ⟨⟨seen.version, balance, 1⟩,?_,rfl,rfl⟩
    simp [stageOver,none]

theorem stageOver_other (other : x ≠ seen.id) : (t.stageOver seen balance)[x]? = t.writes[x]? := by
  unfold stageOver
  rw [Std.TreeMap.getElem?_insert,if_neg]
  exact fun same => other (Nat.compare_eq_eq.mp same).symm

end Transaction

namespace Sessions

open Answered

variable {s s' : Sessions} {log : List Answered} {c : StoreCall} {r : StoreReply} {m : Answered} {n bound : Nat}
  {id : RecordId} {after : Record}

structure Below (bound : Nat) (s : Sessions) : Prop where
  stored : ∀ (id : RecordId) (r : Record), s.view id = some r → r.version ≤ bound
  staged : ∀ (n : Nat) (status : TransactionStatus) (writes : WriteSet), s.staged n = some (status, writes) →
    ∀ (id : RecordId) (entry : StagedWrite), writes[id]? = some entry → entry.version ≤ bound

theorem staged_of_present {t : Transaction} (present : s.opened[n]? = some t) :
    s.staged n = some (t.status, t.writes) := by
  rw [staged,present,Option.map_some]

namespace Below

variable (below : s.Below bound)

include below

theorem roomy (low : bound + 1 < Version.limit) : s.Roomy := by
  refine ⟨fun entry member => ?_,fun t member entry inside => ?_⟩
  · have here : s.view entry.1 = some entry.2 := Std.TreeMap.mem_toList_iff_getElem?_eq_some.mp member
    exact Nat.lt_of_le_of_lt (Nat.succ_le_succ (below.stored entry.1 entry.2 here)) low
  · obtain ⟨n,present⟩ := List.mem_iff_getElem?.mp member
    have found := Std.TreeMap.mem_toList_iff_getElem?_eq_some.mp inside
    have bounded := below.staged n _ _ (staged_of_present present) entry.1 entry.2 found
    exact Nat.lt_of_le_of_lt (Nat.succ_le_succ bounded) low

theorem of_reads {t : Transaction} {seen : Record} (present : s.opened[n]? = some t)
    (reads : t.reads s.view id = .ok seen) : seen.version ≤ bound := by
  obtain ⟨_,stored,here,⟨entry,found,rfl⟩ | ⟨_,rfl⟩⟩ := Transaction.reads_cases reads
  · exact below.staged n _ _ (staged_of_present present) stored.id entry found
  · exact below.stored id seen here

theorem of_change {status : TransactionStatus} {writes : WriteSet}
    (stored : ∀ (id : RecordId) (r : Record), s'.view id = some r → r.version ≤ bound + 1)
    (staged : s'.staged = Function.update s.staged n (some (status, writes)))
    (own : ∀ (id : RecordId) (entry : StagedWrite), writes[id]? = some entry → entry.version ≤ bound + 1) :
    s'.Below (bound + 1) := by
  refine ⟨stored,fun k status' writes' here id entry found => ?_⟩
  rw [staged] at here
  by_cases same : k = n
  · subst same
    rw [Function.update_self] at here
    cases here
    exact own id entry found
  · rw [Function.update_of_ne same] at here
    exact Nat.le_succ_of_le (below.staged k status' writes' here id entry found)

theorem step (touches : s.Touches c r s') : s'.Below (bound + 1) := by
  have kept (view : s'.view = s.view) (id : RecordId) (r : Record) (here : s'.view id = some r) :
      r.version ≤ bound + 1 := by
    rw [view] at here
    exact Nat.le_succ_of_le (below.stored id r here)
  have same (staged : s'.staged = s.staged) (n : Nat) (status : TransactionStatus) (writes : WriteSet)
      (here : s'.staged n = some (status, writes)) (id : RecordId) (entry : StagedWrite)
      (found : writes[id]? = some entry) : entry.version ≤ bound + 1 := by
    rw [staged] at here
    exact Nat.le_succ_of_le (below.staged n status writes here id entry found)
  cases touches with
  | still silent view staged => exact ⟨kept view,same staged⟩
  | @inserted id balance _ absent view staged =>
    refine ⟨fun x r here => ?_,same staged⟩
    rw [view] at here
    by_cases new : x = id
    · subst new
      rw [set_self] at here
      cases here
      exact Nat.zero_le _
    · rw [set_other new] at here
      exact Nat.le_succ_of_le (below.stored x r here)
  | @updated id expected balance after _ installs staged =>
    obtain ⟨before,was,_,next,view⟩ := installs
    refine ⟨fun x r here => ?_,same staged⟩
    rw [view] at here
    by_cases written : x = id
    · subst written
      rw [set_self] at here
      cases here
      rw [Record.next_eq next]
      exact Nat.succ_le_succ (below.stored x before was)
    · rw [set_other written] at here
      exact Nat.le_succ_of_le (below.stored x r here)
  | began view staged =>
    refine below.of_change (kept view) staged fun id entry found => ?_
    simp at found
  | @wrote n t id balance seen after _ present active reads next view staged =>
    refine below.of_change (kept view) staged fun x entry found => ?_
    by_cases own : x = seen.id
    · subst own
      obtain ⟨entry',found',_,version⟩ := Transaction.stageOver_self balance reads
      cases found.symm.trans found'
      rw [version]
      exact Nat.succ_le_succ (below.of_reads present reads)
    · rw [Transaction.stageOver_other own] at found
      exact Nat.le_succ_of_le (below.staged n _ _ (staged_of_present present) x entry found)
  | @committed n t _ present active current view staged =>
    have own (x : RecordId) (entry : StagedWrite) (found : t.writes[x]? = some entry) :
        entry.version ≤ bound + 1 :=
      Nat.le_succ_of_le (below.staged n _ _ (staged_of_present present) x entry found)
    refine below.of_change (fun x r here => ?_) staged own
    rw [view] at here
    unfold overlay at here
    split at here
    · next entry found =>
      cases here
      exact own x entry found
    · exact Nat.le_succ_of_le (below.stored x r here)
  | aborted silent view staged =>
    refine below.of_change (kept view) staged fun id entry found => ?_
    simp at found

end Below

/-- The record is in the store, and in the transaction it is staged as promised, or the transaction has ended. -/
structure Promised (s : Sessions) (n : Nat) (after : Record) : Prop where
  present : ∃ stored, s.view after.id = some stored
  low : after.version < Version.limit
  staged : ∃ status writes, s.staged n = some (status, writes) ∧ (status = .active →
    ∃ entry, writes[after.id]? = some entry ∧ entry.balance = after.balance ∧ entry.version = after.version)

namespace Promised

variable (promised : s.Promised n after)

include promised

theorem later (later : Later s.view s'.view) : ∃ stored, s'.view after.id = some stored := by
  obtain ⟨stored,here⟩ := promised.present
  obtain ⟨stored',there,_⟩ := later after.id stored here
  exact ⟨stored',there⟩

theorem keep (later : Later s.view s'.view) (same : s'.staged n = s.staged n) : s'.Promised n after :=
  ⟨promised.later later,promised.low,by rw [same]; exact promised.staged⟩

theorem change {k : Nat} {status : TransactionStatus} {writes : WriteSet} (later : Later s.view s'.view)
    (staged : s'.staged = Function.update s.staged k (some (status, writes)))
    (own : k = n → status = .active →
      ∃ entry, writes[after.id]? = some entry ∧ entry.balance = after.balance ∧ entry.version = after.version) :
    s'.Promised n after := by
  by_cases same : n = k
  · subst same
    refine ⟨promised.later later,promised.low,status,writes,?_,own rfl⟩
    rw [staged,Function.update_self]
  · refine promised.keep later ?_
    rw [staged,Function.update_of_ne same]

end Promised

def Honours (log : List Answered) (s : Sessions) : Prop :=
  ∀ (n : Nat) (id : RecordId) (after : Record), lastWrite? log n id = some after → after.id = id ∧ s.Promised n after

theorem Honours.concat (honours : Honours log s) (unwritten : ∀ n id, m.writes n id = false)
    (keeps : ∀ n after, s.Promised n after → s'.Promised n after) : Honours (log ++ [m]) s' := by
  intro n id after last
  rw [lastWrite?_concat,wrote?_of_unwritten (unwritten n id),Option.none_or] at last
  obtain ⟨named,promised⟩ := honours n id after last
  exact ⟨named,keeps n after promised⟩

theorem Honours.write {t : Transaction} {balance : Amount} {seen : Record} (honours : Honours log s)
    (present : s.opened[n]? = some t) (reads : t.reads s.view seen.id = .ok seen)
    (next : seen.next balance = .ok after) (view : s'.view = s.view)
    (staged : s'.staged = Function.update s.staged n (some (.active, t.stageOver seen balance))) :
    Honours (log ++ [(.write n seen.id seen.version balance, .record (.ok after))]) s' := by
  have later : Later s.view s'.view := view ▸ Later.refl s.view
  obtain rfl := Record.next_eq next
  intro k x promise last
  rw [lastWrite?_concat] at last
  by_cases written : n = k ∧ seen.id = x
  · obtain ⟨rfl,rfl⟩ := written
    obtain ⟨_,stored,here,_⟩ := Transaction.reads_cases reads
    simp only [wrote?,and_self,if_true,Option.some_or,Option.some.injEq] at last
    subst last
    refine ⟨rfl,⟨stored,by rw [view]; exact here⟩,Record.room_of_next next,.active,t.stageOver seen balance,?_,
      fun _ => Transaction.stageOver_self balance reads⟩
    rw [staged,Function.update_self]
  · simp only [wrote?,if_neg written,Option.none_or] at last
    obtain ⟨named,promised⟩ := honours k x promise last
    refine ⟨named,promised.change later staged fun same _ => ?_⟩
    subst same named
    rw [Transaction.stageOver_other fun same => written ⟨rfl,same.symm⟩]
    obtain ⟨status,writes,was,kept⟩ := promised.staged
    rw [staged_of_present present] at was
    cases was
    exact kept (Transaction.reads_cases reads).1

theorem Honours.step (honours : Honours log s) (counted : Counted log s) (touches : s.Touches c r s') :
    Honours (log ++ [(c, r)]) s' := by
  have later := counted.later touches
  cases touches with
  | still silent view staged =>
    exact honours.concat silent.writes fun n after promised => promised.keep later (by rw [staged])
  | inserted absent view staged =>
    exact honours.concat (fun _ _ => rfl) fun n after promised => promised.keep later (by rw [staged])
  | updated installs staged =>
    exact honours.concat (fun _ _ => rfl) fun n after promised => promised.keep later (by rw [staged])
  | began view staged =>
    refine honours.concat (fun _ _ => rfl) fun n after promised => promised.keep later ?_
    rw [staged,Function.update_of_ne]
    rintro rfl
    obtain ⟨status,writes,was,_⟩ := promised.staged
    simp [Sessions.staged] at was
  | wrote present active reads next view staged =>
    obtain rfl := Transaction.id_of_reads counted.keyed reads
    exact honours.write present reads next view staged
  | committed present active current view staged =>
    refine honours.concat (fun _ _ => rfl) fun n after promised => promised.change later staged fun _ ended => ?_
    cases ended
  | aborted silent view staged =>
    refine honours.concat silent.writes fun n after promised => promised.change later staged fun _ ended => ?_
    cases ended

/-- A run of calls keeps what every call keeps, as long as it is shorter than the versions are many. -/
theorem Honours.along {calls : List StoreCall} (honours : Honours log s) (counted : Counted log s)
    (below : s.Below bound) (fits : bound + calls.length + 1 < Version.limit) :
    Honours (log ++ s.log calls) (s.after calls) ∧ Counted (log ++ s.log calls) (s.after calls) ∧
      (s.after calls).Below (bound + calls.length) := by
  induction calls generalizing s log bound with
  | nil => exact ⟨by rwa [Sessions.log,List.append_nil],by rwa [Sessions.log,List.append_nil],below⟩
  | cons c calls ih =>
    rw [List.length_cons] at fits
    have touches := touches_act (below.roomy (by omega)) c
    have rest := ih (honours.step counted touches) (counted.step touches) (below.step touches) (by omega)
    rw [List.append_assoc,Nat.add_assoc,Nat.add_comm 1] at rest
    exact rest

theorem honours_start {balances : List (RecordId × Amount)}
    (seeded : s.ledger.store.records = (Store.seeded balances).records) (fresh : s.opened = []) :
    Honours [] s ∧ s.Below 0 := by
  refine ⟨fun n id after last => ?_,fun id r here => ?_,fun n status writes here => ?_⟩
  · simp [lastWrite?] at last
  · have there : (Store.seeded balances).view id = some r := by
      unfold Store.view
      rw [← seeded]
      exact here
    obtain ⟨balance,rfl⟩ := Store.fresh_of_seeded there
    exact Nat.le_refl 0
  · simp [staged,fresh] at here

theorem write_cases (s : Sessions) (n : Nat) (id : RecordId) (expected : Version) (balance : Amount) :
    (s.act (.read n id)).1 = .unknown ∧ s.act (.write n id expected balance) = (.unknown, s) ∨
      ∃ t answer t', s.opened[n]? = some t ∧ (s.act (.read n id)).1 = .record (t.reads s.view id) ∧
        s.act (.write n id expected balance) = (.record answer, { s with opened := s.opened.set n t' }) ∧
        ((∃ f, t.reads s.view id = .error f ∧ answer = .error f ∧ t' = t) ∨
          ∃ seen, t.reads s.view id = .ok seen ∧ (answer, t') = t.stage seen expected balance) := by
  cases present : s.opened[n]? with
  | none =>
    refine .inl ⟨?_,?_⟩
    · simp only [act,within,present]
    · simp only [act,within,present]
  | some t =>
    obtain ⟨_,_,_,⟨reads,_⟩,read⟩ := within_of_present .record present (Session.alone_reads s.ledger t id)
    obtain ⟨answer,t',_,⟨rfl,cases⟩,written⟩ :=
      within_of_present .record present (Session.alone_stages s.ledger t id expected balance)
    rw [reads] at read
    exact .inr ⟨t,answer,t',rfl,congrArg Prod.fst read,written,cases⟩

theorem write_iff_read (roomy : s.Roomy) (n : Nat) (id : RecordId) (expected : Version) (balance : Amount) :
    ((∃ after, (s.act (.write n id expected balance)).1 = .record (.ok after)) ↔
      ∃ seen, (s.act (.read n id)).1 = .record (.ok seen) ∧ seen.version = expected) ∧
    ((s.act (.write n id expected balance)).1.succeeds = false →
      (s.act (.write n id expected balance)).2.staged = s.staged) := by
  rcases s.write_cases n id expected balance with
    ⟨read,acted⟩ | ⟨t,answer,t',present,read,acted,⟨f,failed,rfl,rfl⟩ | ⟨seen,reads,staged⟩⟩
  · rw [read,acted]
    exact ⟨⟨fun ⟨_,wrong⟩ => (by cases wrong),fun ⟨_,wrong,_⟩ => (by cases wrong)⟩,fun _ => rfl⟩
  · rw [read,acted,failed]
    refine ⟨⟨fun ⟨_,wrong⟩ => (by cases wrong),fun ⟨_,wrong,_⟩ => (by cases wrong)⟩,fun _ => ?_⟩
    rw [staged_set present,← staged_of_present present,Function.update_eq_self]
  · rw [read,acted,reads]
    refine ⟨⟨?_,?_⟩,fun failed => ?_⟩
    · rintro ⟨after,succeeds⟩
      cases succeeds
      exact ⟨seen,rfl,(Transaction.stage_ok staged).2.1⟩
    · rintro ⟨_,same,current⟩
      cases same
      have active := (Transaction.reads_cases reads).1
      have next : seen.next balance = .ok ⟨seen.id, balance, seen.version + 1⟩ :=
        Record.next_of_room (roomy.room present reads)
      simp only [Transaction.stage,Transaction.ensureActive_eq_ok.mpr active,ne_eq,current,not_true_eq_false,
        if_false] at staged
      exact ⟨_,congrArg StoreReply.record ((Prod.mk.inj staged).1.trans next)⟩
    · cases answer with
      | ok after => cases failed
      | error f =>
        obtain rfl := Transaction.stage_error staged (roomy.room present reads)
        rw [staged_set present,← staged_of_present present,Function.update_eq_self]

theorem Promised.reads (promised : s.Promised n after) (keyed : s.view.Keyed) (active : s.status? n = some .active) :
    (s.act (.read n after.id)).1 = .record (.ok after) ∧
      ((s.act (.commit n)).1 = .done (.ok ()) →
        ((s.act (.commit n)).2.act (.get after.id)).1 = .record (.ok after)) := by
  obtain ⟨t,present,status⟩ := Option.map_eq_some_iff.mp active
  obtain ⟨stored,here⟩ := promised.present
  obtain ⟨_,_,was,kept⟩ := promised.staged
  rw [staged_of_present present] at was
  cases was
  obtain ⟨entry,found,balance,version⟩ := kept status
  have named : stored.id = after.id := keyed after.id stored here
  have same : after = ⟨after.id, entry.balance, entry.version⟩ := by rw [balance,version]
  constructor
  · obtain ⟨_,_,_,⟨rfl,_⟩,read⟩ := within_of_present .record present (Session.alone_reads s.ledger t after.id)
    have reads : t.reads s.view after.id = .ok ⟨stored.id, entry.balance, entry.version⟩ :=
      Transaction.reads_of_staged status here (by rwa [named]) (version ▸ promised.low)
    rw [named,← same] at reads
    exact (congrArg Prod.fst read).trans (congrArg StoreReply.record reads)
  · intro committed
    have view := view_act (c := .commit n) rfl present
    rw [committed] at view
    have shown : (s.act (.commit n)).2.view after.id = some after := by
      rw [view.trans (if_pos rfl),overlay,found]
      exact congrArg some same.symm
    change StoreReply.record (Outcome.ofError ((s.act (.commit n)).2.ledger.store.get after.id)) = _
    unfold Store.get
    change (s.act (.commit n)).2.ledger.store.records[after.id]? = some after at shown
    rw [shown]
    rfl

/-- At any moment of a run a write succeeds exactly at the version that the transaction reads, and if it fails it stages
nothing. What the last write of a record promised is read from then on, whatever else is called, and stored once the
transaction has committed. -/
theorem reads_own_writes {s : Sessions} {balances : List (RecordId × Amount)}
    (seeded : s.ledger.store.records = (Store.seeded balances).records) (fresh : s.opened = [])
    {calls : List StoreCall} (fits : calls.length + 1 < Version.limit) (n : Nat) (id : RecordId) :
    let now := s.after calls
    (∀ (expected : Version) (balance : Amount),
      ((∃ after, (now.act (.write n id expected balance)).1 = .record (.ok after)) ↔
        ∃ seen, (now.act (.read n id)).1 = .record (.ok seen) ∧ seen.version = expected) ∧
      ((now.act (.write n id expected balance)).1.succeeds = false →
        (now.act (.write n id expected balance)).2.staged = now.staged)) ∧
    ∀ after, lastWrite? (s.log calls) n id = some after → now.status? n = some .active →
      (now.act (.read n id)).1 = .record (.ok after) ∧
      ((now.act (.commit n)).1 = .done (.ok ()) →
        ((now.act (.commit n)).2.act (.get id)).1 = .record (.ok after)) := by
  intro now
  obtain ⟨honours,below⟩ := honours_start seeded fresh
  obtain ⟨honours,counted,below⟩ := honours.along (counted_start seeded fresh) below (by rwa [Nat.zero_add])
  have roomy : now.Roomy := below.roomy (by rwa [Nat.zero_add])
  refine ⟨write_iff_read roomy n id,fun after last active => ?_⟩
  obtain ⟨rfl,promised⟩ := honours n id after last
  exact promised.reads counted.keyed active

/-- A transaction writes two records, the second is updated behind its back, one write of the first is stale and the
next is not. -/
def overtaken : List StoreCall :=
  [.begin, .write 0 1 0 90, .write 0 2 0 40, .conditionalUpdate 2 0 70, .write 0 1 7 0, .write 0 1 1 80]

theorem reads_own_writes_overtaken :
    let s : Sessions := { ledger := { store := .seeded [(1, 100),(2, 50)] } }
    overtaken.length + 1 < Version.limit ∧ (s.after overtaken).view 2 = some ⟨2, 70, 1⟩ ∧
      ((s.after overtaken).act (.read 0 2)).1 = .record (.ok ⟨2, 40, 1⟩) ∧
      ((s.after overtaken).act (.read 0 1)).1 = .record (.ok ⟨1, 80, 2⟩) ∧
      (((s.after (contested ++ meanwhile)).act (.commit 2)).2.act (.get 1)).1 = .record (.ok ⟨1, 50, 5⟩) := by
  intro s
  have short : (contested ++ meanwhile).length + 1 < Version.limit := by decide
  have updated : (s.after overtaken).view 2 = some ⟨2, 70, 1⟩ := by decide +kernel
  have active : (s.after overtaken).status? 0 = some .active := by decide +kernel
  have one : lastWrite? (s.log overtaken) 0 1 = some ⟨1, 80, 2⟩ := by decide +kernel
  have two : lastWrite? (s.log overtaken) 0 2 = some ⟨2, 40, 1⟩ := by decide +kernel
  have pending : (s.after (contested ++ meanwhile)).status? 2 = some .active := by decide +kernel
  have last : lastWrite? (s.log (contested ++ meanwhile)) 2 1 = some ⟨1, 50, 5⟩ := by decide +kernel
  have done : ((s.after (contested ++ meanwhile)).act (.commit 2)).1 = .done (.ok ()) := by decide +kernel
  have fits : overtaken.length + 1 < Version.limit := by decide
  have reads (id : RecordId) := (reads_own_writes (s := s) rfl rfl fits 0 id).2
  have stored := (reads_own_writes (s := s) rfl rfl short 2 1).2 _ last pending
  exact ⟨fits,updated,(reads 2 _ two active).1,(reads 1 _ one active).1,stored.2 done⟩

end Sessions

end VersionedLedger

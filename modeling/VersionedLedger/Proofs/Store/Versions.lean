import Mathlib.Algebra.BigOperators.Group.Finset.Basic
import Mathlib.Algebra.Order.BigOperators.Group.Finset
import VersionedLedger.Proofs.Store.Calls

/-! A version counts the writes of its record. An update that succeeds counts at once, a write in a transaction
once the transaction has committed. A call that is conditional on a version succeeds only if no write of the record
has taken effect since it was at that version. -/
namespace VersionedLedger

open View

namespace Answered

variable {log more : List Answered} {m : Answered} {n : Nat} {id : RecordId}

def updated (log : List Answered) (id : RecordId) : Nat := log.countP (Answered.updates id)

def written (log : List Answered) (n : Nat) (id : RecordId) : Nat := log.countP (Answered.writes n id)

def committed (log : List Answered) : Finset Nat := (log.filterMap commits?).toFinset

/-- The writes of the record that have taken effect. -/
def landed (log : List Answered) (id : RecordId) : Nat := updated log id + ∑ n ∈ committed log, written log n id

theorem updated_append : updated (log ++ more) id = updated log id + updated more id := List.countP_append

theorem written_append : written (log ++ more) n id = written log n id + written more n id := List.countP_append

theorem committed_append : committed (log ++ more) = committed log ∪ committed more := by
  unfold committed
  rw [List.filterMap_append,List.toFinset_append]

theorem written_single (unwritten : m.writes n id = false) : written [m] n id = 0 := by
  simp [written,unwritten]

theorem mem_committed_single : n ∈ committed [m] ↔ m.commits? = some n := by
  unfold committed
  cases commits : m.commits? <;> simp [commits,eq_comm]

theorem landed_concat (open_ : m.commits? = none) (closed : ∀ n ∈ committed log, m.writes n id = false) :
    landed (log ++ [m]) id = landed log id + updated [m] id := by
  have same : committed (log ++ [m]) = committed log := by
    rw [committed_append]
    refine Finset.union_eq_left.mpr fun n commits => ?_
    cases open_.symm.trans (mem_committed_single.mp commits)
  have sums : ∑ n ∈ committed log, written (log ++ [m]) n id = ∑ n ∈ committed log, written log n id := by
    refine Finset.sum_congr rfl fun n here => ?_
    rw [written_append,written_single (closed n here),Nat.add_zero]
  unfold landed
  rw [same,sums,updated_append,Nat.add_right_comm]

theorem landed_silent (silent : m.Silent) : landed (log ++ [m]) id = landed log id := by
  rw [landed_concat silent.commits fun n _ => silent.writes n id]
  simp [updated,silent.updates id]

theorem landed_commit (uncommitted : n ∉ committed log) :
    landed (log ++ [(.commit n, .done (.ok ()))]) id = landed log id + written log n id := by
  have grown : committed (log ++ [(.commit n, .done (.ok ()))]) = insert n (committed log) := by
    rw [committed_append,Finset.union_comm]
    rfl
  have unwritten (k : Nat) : written (log ++ [(.commit n, .done (.ok ()))]) k id = written log k id := written_append
  unfold landed
  rw [grown,Finset.sum_insert uncommitted,updated_append]
  simp only [unwritten]
  change updated log id + 0 + _ = _
  omega

structure Untouched (log more : List Answered) (id : RecordId) : Prop where
  updates : ∀ m ∈ more, m.updates id = false
  commits : ∀ n ∈ committed (log ++ more), n ∉ committed log → written (log ++ more) n id = 0

theorem untouched_of_landed (same : landed (log ++ more) id = landed log id) : Untouched log more id := by
  have grown : committed log ⊆ committed (log ++ more) := by
    rw [committed_append]
    exact Finset.subset_union_left
  have before : ∑ n ∈ committed log, written log n id ≤ ∑ n ∈ committed log, written (log ++ more) n id := by
    refine Finset.sum_le_sum fun n _ => ?_
    rw [written_append]
    exact Nat.le_add_right _ _
  have parts := Finset.sum_sdiff (f := fun n => written (log ++ more) n id) grown
  unfold landed at same
  rw [updated_append] at same
  have none : updated more id = 0 ∧
      ∑ n ∈ committed (log ++ more) \ committed log, written (log ++ more) n id = 0 := by omega
  refine ⟨fun m here => ?_,fun n now earlier => ?_⟩
  · simpa using List.countP_eq_zero.mp none.1 m here
  · exact Finset.sum_eq_zero_iff.mp none.2 n (Finset.mem_sdiff.mpr ⟨now,earlier⟩)

structure Apart (n : Nat) (m : Answered) : Prop where
  commits : m.commits? ≠ some n
  writes : ∀ id, m.writes n id = false

theorem apart_of_none (commits : m.commits? = none) (writes : ∀ id, m.writes n id = false) : m.Apart n := by
  refine ⟨fun same => ?_,writes⟩
  cases commits.symm.trans same

theorem Silent.apart (silent : m.Silent) (n : Nat) : m.Apart n := apart_of_none silent.commits (silent.writes n)

/-- The staged writes are the ones that have succeeded in a transaction that has not committed. -/
structure Staged (log : List Answered) (n : Nat) (writes : WriteSet) : Prop where
  uncommitted : n ∉ committed log
  counted : ∀ id : RecordId, (writes[id]?).elim 0 StagedWrite.writes = written log n id
  raised : ∀ (id : RecordId) (staged : StagedWrite), writes[id]? = some staged → 0 < staged.writes

variable {writes : WriteSet}

theorem not_mem_committed_concat (uncommitted : n ∉ committed log) (other : m.commits? ≠ some n) :
    n ∉ committed (log ++ [m]) := by
  rw [committed_append,Finset.mem_union,mem_committed_single]
  exact not_or_intro uncommitted other

theorem Staged.concat (staged : Staged log n writes) (apart : m.Apart n) : Staged (log ++ [m]) n writes := by
  refine ⟨not_mem_committed_concat staged.uncommitted apart.commits,fun id => ?_,staged.raised⟩
  rw [written_append,written_single (apart.writes id),staged.counted]
  rfl

theorem Staged.write {t : Transaction} {seen after : Record} {balance : Amount} (staged : Staged log n t.writes) :
    Staged (log ++ [(.write n seen.id seen.version balance, .record (.ok after))]) n (t.stageOver seen balance) := by
  refine ⟨not_mem_committed_concat staged.uncommitted fun same => ?_,fun id => ?_,fun id entry here => ?_⟩
  · cases same
  · rw [written_append,← staged.counted]
    unfold Transaction.stageOver
    by_cases same : seen.id = id
    · subst same
      cases found : t.writes[seen.id]? <;> simp [written,Answered.writes]
    · simp [Std.TreeMap.getElem?_insert,same,written,Answered.writes]
  · unfold Transaction.stageOver at here
    rw [Std.TreeMap.getElem?_insert] at here
    split at here
    · cases here
      exact Nat.succ_pos _
    · exact staged.raised id entry here

end Answered

namespace Transaction

theorem id_of_reads {t : Transaction} {V : View} {id : RecordId} {seen : Record} (keyed : V.Keyed)
    (reads : t.reads V id = .ok seen) : seen.id = id := by
  unfold Transaction.reads at reads
  split at reads
  · cases reads
  · cases reads
  · next r _ here => exact (id_of_view reads).trans (keyed id r here)

end Transaction

namespace Sessions

open Answered

def version (s : Sessions) (id : RecordId) : Version := (s.view id).elim 0 Record.version

/-- The versions and the staged writes agree with the calls that have been answered. -/
structure Counted (log : List Answered) (s : Sessions) : Prop where
  keyed : s.view.Keyed
  stored : ∀ id, s.version id = landed log id
  active : ∀ (n : Nat) (writes : WriteSet), s.staged n = some (.active, writes) → Staged log n writes
  unknown : ∀ n, s.staged n = none → Staged log n ∅

variable {s s' : Sessions} {log : List Answered} {c : StoreCall} {r : StoreReply} {m : Answered} {id : RecordId}

theorem version_of_view (view : s'.view = s.view) : s'.version id = s.version id := by
  unfold version
  rw [view]

namespace Counted

variable (counted : Counted log s)

include counted

theorem version_of_some {r : Record} (here : s.view id = some r) : r.version = landed log id := by
  rw [← counted.stored id,version,here]
  rfl

theorem keep (staged : s'.staged = s.staged) (apart : ∀ n, m.Apart n) (keyed : s'.view.Keyed)
    (stored : ∀ id, s'.version id = landed (log ++ [m]) id) : Counted (log ++ [m]) s' := by
  refine ⟨keyed,stored,fun n w here => ?_,fun n here => ?_⟩
  · rw [staged] at here
    exact (counted.active n w here).concat (apart n)
  · rw [staged] at here
    exact (counted.unknown n here).concat (apart n)

theorem change {n : Nat} {status : TransactionStatus} {w : WriteSet}
    (staged : s'.staged = Function.update s.staged n (some (status, w)))
    (own : status = .active → Staged (log ++ [m]) n w) (others : ∀ k, k ≠ n → m.Apart k)
    (keyed : s'.view.Keyed) (stored : ∀ id, s'.version id = landed (log ++ [m]) id) : Counted (log ++ [m]) s' := by
  refine ⟨keyed,stored,fun k w' here => ?_,fun k here => ?_⟩
  · rw [staged] at here
    by_cases same : k = n
    · subst same
      rw [Function.update_self] at here
      cases here
      exact own rfl
    · rw [Function.update_of_ne same] at here
      exact (counted.active k w' here).concat (others k same)
  · rw [staged] at here
    by_cases same : k = n
    · subst same
      rw [Function.update_self] at here
      cases here
    · rw [Function.update_of_ne same] at here
      exact (counted.unknown k here).concat (others k same)

theorem active_of_present {n : Nat} {t : Transaction} (present : s.opened[n]? = some t)
    (active : t.status = .active) : Staged log n t.writes := by
  refine counted.active n t.writes ?_
  rw [Sessions.staged,present,← active]
  rfl

theorem insert {balance : Amount} (absent : s.view id = none)
    (view : s'.view = s.view.set id (.fresh id balance)) (staged : s'.staged = s.staged) :
    Counted (log ++ [(.insert id balance, .record (.ok (.fresh id balance)))]) s' := by
  have silent := silent_of_aside (c := .insert id balance) rfl (.record (.ok (.fresh id balance)))
  refine counted.keep staged silent.apart (view ▸ counted.keyed.set rfl) fun x => ?_
  rw [landed_silent silent,← counted.stored x]
  unfold version
  rw [view]
  by_cases same : x = id
  · rw [same,set_self,absent]
    rfl
  · rw [set_other same]

theorem update {expected : Version} {balance : Amount} {after : Record}
    (installs : Installs s.view id expected balance after s'.view) (staged : s'.staged = s.staged) :
    Counted (log ++ [(.conditionalUpdate id expected balance, .record (.ok after))]) s' := by
  refine counted.keep staged (fun n => apart_of_none rfl fun _ => rfl) (installs.keyed counted.keyed) fun x => ?_
  rw [landed_concat rfl fun _ _ => rfl,← counted.stored x]
  obtain ⟨r,here,_,next,moved⟩ := installs
  unfold version
  rw [moved]
  by_cases same : x = id
  · subst same
    rw [set_self,here,Record.next_eq next]
    simp [updated,Answered.updates]
  · rw [set_other same]
    simp [updated,Answered.updates,Ne.symm same]

theorem write {n : Nat} {t : Transaction} {balance : Amount} {seen after : Record}
    (present : s.opened[n]? = some t) (active : t.status = .active) (reads : t.reads s.view id = .ok seen)
    (view : s'.view = s.view)
    (staged : s'.staged = Function.update s.staged n (some (.active, t.stageOver seen balance))) :
    Counted (log ++ [(.write n id seen.version balance, .record (.ok after))]) s' := by
  obtain rfl := Transaction.id_of_reads counted.keyed reads
  have before := counted.active_of_present present active
  have closed (k : Nat) (x : RecordId) (other : k ≠ n) :
      Answered.writes k x (.write n seen.id seen.version balance, .record (.ok after)) = false := by
    simp [Answered.writes,Ne.symm other]
  refine counted.change staged (fun _ => before.write) (fun k other => apart_of_none rfl fun x => closed k x other)
    (view ▸ counted.keyed) fun x => ?_
  rw [landed_concat rfl fun k committed => closed k x fun same => before.uncommitted (same ▸ committed),
    version_of_view view,counted.stored]
  rfl

theorem commit {n : Nat} {t : Transaction} (present : s.opened[n]? = some t) (active : t.status = .active)
    (current : Current s.view t.writes) (view : s'.view = overlay s.view t.writes)
    (staged : s'.staged = Function.update s.staged n (some (.committed, t.writes))) :
    Counted (log ++ [(.commit n, .done (.ok ()))]) s' := by
  have before := counted.active_of_present present active
  refine counted.change staged (fun ended => by cases ended) (fun k other => ⟨?_,fun _ => rfl⟩)
    (view ▸ counted.keyed.overlay t.writes) fun x => ?_
  · exact fun same => other (Option.some.inj same).symm
  · rw [landed_commit before.uncommitted,← counted.stored x,← before.counted x]
    unfold version
    rw [view]
    unfold overlay
    cases found : t.writes[x]? with
    | none => rfl
    | some entry =>
      obtain ⟨r,here,base⟩ := current x entry found
      rw [here]
      change entry.version = r.version + entry.writes
      rw [base]
      rfl

theorem begin (view : s'.view = s.view)
    (staged : s'.staged = Function.update s.staged s.opened.length (some (.active, ∅))) :
    Counted (log ++ [(.begin, .began s.opened.length)]) s' := by
  have silent := silent_of_aside (c := .begin) rfl (.began s.opened.length)
  have unknown : s.staged s.opened.length = none := by
    rw [Sessions.staged,List.getElem?_eq_none (Nat.le_refl _)]
    rfl
  refine counted.change staged (fun _ => (counted.unknown _ unknown).concat (silent.apart _))
    (fun k _ => silent.apart k) (view ▸ counted.keyed) fun x => ?_
  rw [landed_silent silent,version_of_view view,counted.stored]

theorem step (touches : s.Touches c r s') : Counted (log ++ [(c, r)]) s' := by
  cases touches with
  | still silent view staged =>
    refine counted.keep staged silent.apart (view ▸ counted.keyed) fun x => ?_
    rw [landed_silent silent,version_of_view view,counted.stored]
  | inserted absent view staged => exact counted.insert absent view staged
  | updated installs staged => exact counted.update installs staged
  | began view staged => exact counted.begin view staged
  | wrote present active reads next view staged => exact counted.write present active reads view staged
  | committed present active current view staged => exact counted.commit present active current view staged
  | aborted silent view staged =>
    refine counted.change staged (fun active => by cases active) (fun k _ => silent.apart k)
      (view ▸ counted.keyed) fun x => ?_
    rw [landed_silent silent,version_of_view view,counted.stored]

theorem later (touches : s.Touches c r s') : Later s.view s'.view := by
  cases touches with
  | still _ view _ | began view _ | wrote _ _ _ _ view _ | aborted _ view _ => exact view ▸ Later.refl s.view
  | inserted absent view staged =>
    intro x before here
    rw [view,set_other fun same => by cases (same ▸ here).symm.trans absent]
    exact ⟨before,here,Nat.le_refl _,fun _ => rfl⟩
  | updated installs _ => exact installs.later
  | committed present active current view _ =>
    exact view ▸ Later.overlay current (counted.active_of_present present active).raised

theorem after {calls : List StoreCall} (roomy : ∀ earlier, earlier <+: calls → (s.after earlier).Roomy) :
    Counted (log ++ s.log calls) (s.after calls) ∧ Later s.view (s.after calls).view := by
  induction calls generalizing s log with
  | nil => exact ⟨(List.append_nil log).symm ▸ counted,Later.refl s.view⟩
  | cons c calls ih =>
    have touches := touches_act (roomy [] List.nil_prefix) c
    obtain ⟨ends,onward⟩ := ih (counted.step touches) fun earlier before =>
      roomy (c :: earlier) (List.cons_prefix_cons.mpr ⟨rfl,before⟩)
    rw [List.append_assoc] at ends
    exact ⟨ends,(counted.later touches).trans onward⟩

end Counted

theorem counted_start {balances : List (RecordId × Amount)}
    (seeded : s.ledger.store.records = (Store.seeded balances).records) (fresh : s.opened = []) : Counted [] s := by
  have same : s.view = (Store.seeded balances).view := by
    unfold view Store.view
    rw [seeded]
  have nothing (n : Nat) : s.staged n = none := by
    rw [staged,fresh]
    rfl
  refine ⟨same ▸ Store.keyed_seeded balances,fun id => ?_,fun n writes here => ?_,fun n _ => ?_⟩
  · unfold version
    rw [same]
    cases found : (Store.seeded balances).view id with
    | none => rfl
    | some r =>
      obtain ⟨balance,rfl⟩ := Store.fresh_of_seeded found
      rfl
  · cases (nothing n).symm.trans here
  · exact ⟨by simp [committed],fun id => by simp [written],fun id staged here => by simp at here⟩

/-- A call succeeds that is conditional on the version: an update, or a commit with a write that began there. -/
inductive Passes (s : Sessions) (id : RecordId) (expected : Version) : Prop
  | update {balance : Amount} {after : Record}
      (done : (s.act (.conditionalUpdate id expected balance)).1 = .record (.ok after))
  | commit {n : Nat} {status : TransactionStatus} {writes : WriteSet} {entry : StagedWrite}
      (pending : s.staged n = some (status, writes)) (here : writes[id]? = some entry) (base : entry.base = expected)
      (done : (s.act (.commit n)).1 = .done (.ok ()))

theorem Passes.current {expected : Version} (passes : s.Passes id expected) (roomy : s.Roomy) :
    ∃ r, s.view id = some r ∧ r.version = expected := by
  cases passes with
  | @update balance after done =>
    have touches := touches_act roomy (.conditionalUpdate id expected balance)
    rw [done] at touches
    cases touches with
    | still silent _ _ | aborted silent _ _ =>
      have counts : Answered.updates id (.conditionalUpdate id expected balance, .record (.ok after)) = true := by
        simp [Answered.updates]
      cases (silent.updates id).symm.trans counts
    | updated installs _ =>
      obtain ⟨r,here,version,_⟩ := installs
      exact ⟨r,here,version⟩
  | @commit n status writes entry pending here base done =>
    have touches := touches_act roomy (.commit n)
    rw [done] at touches
    cases touches with
    | still silent _ _ | aborted silent _ _ => cases silent.commits
    | committed present active current _ _ =>
      rw [staged,present] at pending
      cases pending
      exact base ▸ current id entry here

/-- Every version counts the writes that have taken effect, so a call that is conditional on the version at which the
stored record was read succeeds only if the record is as it was and no write of it has taken effect since. -/
theorem versions_count {s : Sessions} {balances : List (RecordId × Amount)}
    (seeded : s.ledger.store.records = (Store.seeded balances).records) (fresh : s.opened = [])
    {calls : List StoreCall} (roomy : ∀ earlier, earlier <+: calls → (s.after earlier).Roomy) :
    (∀ (id : RecordId) (r : Record), (s.after calls).view id = some r → r.version = landed (s.log calls) id) ∧
      ∀ (earlier later : List StoreCall) (id : RecordId) (read : Record), calls = earlier ++ later →
        (s.after earlier).view id = some read → (s.after calls).Passes id read.version →
          (s.after calls).view id = some read ∧ Untouched (s.log earlier) ((s.after earlier).log later) id := by
  have start := counted_start seeded fresh
  have ends : Counted (s.log calls) (s.after calls) := (start.after roomy).1
  refine ⟨fun id r here => ends.version_of_some here,fun earlier later id read parts was passes => ?_⟩
  subst parts
  have middle : Counted (s.log earlier) (s.after earlier) :=
    (start.after fun calls before => roomy calls (before.trans (List.prefix_append earlier later))).1
  have onward : Later (s.after earlier).view (s.after (earlier ++ later)).view := by
    rw [after_append]
    refine (middle.after fun calls before => ?_).2
    exact after_append s earlier calls ▸ roomy _ ((List.prefix_append_right_inj earlier).mpr before)
  obtain ⟨now,here,same⟩ := passes.current (roomy _ List.prefix_rfl)
  obtain ⟨r,there,_,unchanged⟩ := onward id read was
  cases here.symm.trans there
  obtain rfl := unchanged same
  refine ⟨here,untouched_of_landed ?_⟩
  rw [← log_append,← ends.version_of_some here,middle.version_of_some was]

/-- Two writes are committed, one transaction loses its record to an update, and one update meets a fault. -/
def contested : List StoreCall :=
  [.begin, .begin, .write 0 1 0 90, .write 0 1 1 80, .write 0 1 1 70, .write 1 2 0 60, .conditionalUpdate 2 0 70,
    .commit 1, .commit 0, .commit 0, .insert 3 5, .setFaults (.script [true]), .conditionalUpdate 1 2 75,
    .conditionalUpdate 1 2 75]

def meanwhile : List StoreCall := [.begin, .write 2 1 3 60, .conditionalUpdate 2 1 0, .write 2 1 4 50]

theorem versions_count_contested :
    let s : Sessions := { ledger := { store := .seeded [(1, 100),(2, 50)] } }
    (∀ earlier, earlier <+: contested ++ meanwhile → (s.after earlier).Roomy) ∧
      (s.after contested).view 1 = some ⟨1, 75, 3⟩ ∧ (s.after (contested ++ meanwhile)).Passes 1 3 ∧
      landed (s.log (contested ++ meanwhile)) 1 = 3 ∧ landed (s.log (contested ++ meanwhile)) 2 = 2 ∧
      (s.after (contested ++ meanwhile)).view 1 = some ⟨1, 75, 3⟩ ∧
      Untouched (s.log contested) ((s.after contested).log meanwhile) 1 := by
  intro s
  have roomy : ∀ earlier ∈ (contested ++ meanwhile).inits, (s.after earlier).Roomy := by decide +kernel
  have read : (s.after contested).view 1 = some ⟨1, 75, 3⟩ := by decide +kernel
  have other : (s.after (contested ++ meanwhile)).view 2 = some ⟨2, 0, 2⟩ := by decide +kernel
  have pending : ((s.after (contested ++ meanwhile)).staged 2).map (fun t => t.2[(1 : RecordId)]?) =
      some (some ⟨3, 50, 2⟩) := by decide +kernel
  have done : ((s.after (contested ++ meanwhile)).act (.commit 2)).1 = .done (.ok ()) := by decide +kernel
  have passes : (s.after (contested ++ meanwhile)).Passes 1 3 := by
    obtain ⟨⟨status,writes⟩,found,here⟩ := Option.map_eq_some_iff.mp pending
    exact .commit found here rfl done
  obtain ⟨versions,conditional⟩ := versions_count (s := s) rfl rfl
    fun earlier before => roomy earlier ((List.mem_inits _ _).mpr before)
  obtain ⟨here,untouched⟩ := conditional contested meanwhile 1 _ rfl read passes
  exact ⟨fun earlier before => roomy earlier ((List.mem_inits _ _).mpr before),read,passes,(versions 1 _ here).symm,
    (versions 2 _ other).symm,here,untouched⟩

end Sessions

end VersionedLedger

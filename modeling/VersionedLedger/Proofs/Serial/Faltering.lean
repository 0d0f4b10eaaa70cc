import VersionedLedger.Ledger.Operations
import VersionedLedger.Proofs.Ledger.Faults
import VersionedLedger.Proofs.Serial.Balance
import VersionedLedger.Proofs.Store.Calls

/-! A transfer that is tried again while its commits meet faults. An attempt that fails leaves the ledger as it
found it, with one outcome less to come; so the first success to come is the one that moves the money, if the
attempts last until then. -/
namespace VersionedLedger

open Procedure View

variable {σ : Type}

/-- Nobody holds a lock; of the faults nothing is said. -/
def Ledger.Idle (s : Ledger) (V : View) : Prop := (s.withFaults {}).store.Idle V

namespace Session

variable {s left : Ledger} {t after : Transaction} {answer : Outcome Unit} {f : Faults} {i : Nat}

theorem Commits.faults_eq (commits : Commits s t answer after left) (active : t.status = .active)
    (pending : t.writes.isEmpty = false) : left.store.faults = s.afterCheck.store.faults := by
  cases commits with
  | ended inactive =>
    rw [Transaction.ensureActive_eq_ok.mpr active] at inactive
    cases inactive
  | readOnly _ nothing => cases pending.symm.trans nothing
  | fault => rfl
  | refused | applied => exact Store.faults_apply _ _

theorem faults_afterCheck (never : f.rate = 0) (faults : s.store.faults = f.spend i) :
    s.afterCheck.store.faults = f.spend (i + 1) := by
  obtain ⟨n,drawn⟩ := (s.elapse s.store.faults.latency).exists_draw_eq
  unfold Ledger.afterCheck Ledger.checkFault
  rw [drawn]
  change (s.store.faults.check (n >>> 11 % Faults.million) "commit").2 = f.spend (i + 1)
  rw [faults,Faults.check_spend never]

theorem faultDue_iff (never : f.rate = 0) (faults : s.store.faults = f.spend i) :
    s.FaultDue ↔ f.fails i = true := by
  rw [Ledger.FaultDue,faults,← Faults.due_iff,Faults.due_spend never]

/-- A commit takes one outcome: it changes no record if this is a failure, and else writes what is staged. In
both cases it gives back its locks. -/
theorem alone_commit_checked (active : t.ensureActive = .ok ()) (pending : t.writes.isEmpty = false)
    (current : Current s.store.view t.writes) (never : f.rate = 0) (faults : s.store.faults = f.spend i) :
    commit.Obeys Rule.alone (fun answer _ left =>
      left.store.faults = f.spend (i + 1) ∧ left.store.locks = s.store.locks.releaseAll t.id t.held ∧
      (f.fails i = true → answer = .error (.error (.unavailable "injected fault during commit")) ∧
        left.store.view = s.store.view) ∧
      (f.fails i = false → answer = .ok () ∧ left.store.view = overlay s.store.view t.writes)) t s := by
  refine (alone_commits s t).mono Rule.alone_monotone fun answer after left commits => ?_
  have going := Transaction.ensureActive_eq_ok.mp active
  have due := faultDue_iff never faults
  refine ⟨(commits.faults_eq going pending).trans (faults_afterCheck never faults),commits.locks_eq,
    fun failed => ?_,fun passed => ?_⟩
  · have unchanged {e : Failure} (refused : answer = .error e) : left.store.view = s.store.view := by
      rw [refused] at commits
      exact commits.view_of_error
    cases commits with
    | ended inactive => cases active.symm.trans inactive
    | readOnly _ nothing => cases pending.symm.trans nothing
    | fault _ _ _ named => exact ⟨by rw [named],unchanged rfl⟩
    | refused _ _ spared | applied _ _ spared => exact absurd (due.mpr failed) spared
  · have spared : ¬ s.FaultDue := fun found => by cases passed.symm.trans (due.mp found)
    obtain rfl : answer = .ok () := commits.ok_iff.mpr ⟨going,.inr ⟨spared,current⟩⟩
    exact ⟨rfl,commits.view_of_ok⟩

theorem alone_commit_faulty (active : t.ensureActive = .ok ()) (calm : (s.withFaults {}).store.Calm V t.id t.held)
    (pending : t.writes.isEmpty = false) (current : Current V t.writes) (never : f.rate = 0)
    (faults : s.store.faults = f.spend i) : commit.Obeys Rule.alone (fun answer _ left =>
      left.store.faults = f.spend (i + 1) ∧
      (f.fails i = true → answer = .error (.error (.unavailable "injected fault during commit")) ∧ left.Idle V) ∧
      (f.fails i = false → answer = .ok () ∧ left.Idle (overlay V t.writes))) t s := by
  have view : s.store.view = V := calm.view
  rw [← view] at current
  refine (alone_commit_checked active pending current never faults).mono Rule.alone_monotone ?_
  intro answer after left ended
  obtain ⟨spent,locks,failed,passed⟩ := ended
  have idle {V' : View} (left_view : left.store.view = V') : left.Idle V' := by
    have given (calm : (left.withFaults {}).store.Calm V' t.id []) : left.Idle V' := calm.idle
    refine given ⟨left_view,fun x => ?_,rfl,rfl,rfl⟩
    have held : s.store.locks.table.owners[x]? = if x ∈ t.held then some t.id else none := calm.locks x
    have released : left.store.locks.table.owners[x]? = _ :=
      (congrArg (·.table.owners[x]?) locks).trans (LockTable.releaseAll_owners t.held x)
    change left.store.locks.table.owners[x]? = _
    rw [released,held]
    by_cases noted : x ∈ t.held <;> simp [noted]
  rw [view] at failed passed
  exact ⟨spent,fun fault => ⟨(failed fault).1,idle (failed fault).2⟩,fun none => ⟨(passed none).1,idle (passed none).2⟩⟩

end Session

namespace Transfer

variable {t : Transfer} {receipt : Receipt} {V' : View} {s : Ledger} {f : Faults} {i : Nat}

theorem alone_ordered_faulty (l : Locking) (moves : t.Moves V receipt V') (keyed : V.Keyed) (own : σ)
    (idle : s.Idle V) (never : f.rate = 0) (faults : s.store.faults = f.spend i) :
    (t.ordered l).Obeys Rule.alone (fun answer _ left => left.store.faults = f.spend (i + 1) ∧
      (f.fails i = true → answer = .error (.error (.unavailable "injected fault during commit")) ∧ left.Idle V) ∧
      (f.fails i = false → answer = .ok receipt ∧ left.Idle V')) own s := by
  unfold ordered Locking.withLocks Locking.run withTransaction
  rw [obeys_bind,obeys_ofError,moves.valid]
  dsimp only [Outcome.ofError]
  rw [obeys_bind,obeys_perform]
  refine Rule.alone_of_reply rfl ?_
  dsimp only
  rw [obeys_bind,obeys_within,obeys_bind,obeys_outcome]
  have blind : (l.acquireAll (Locking.ascending t.ids) >>= fun _ => t.stage : Session Receipt).Blind :=
    (l.blind_acquireAll _).bind fun _ => t.blind_stage
  have calm := idle s.store.nextTxn
  have ready : (Transaction.start s.store.nextTxn).Ready V ((s.answer .begin).2.withFaults {}) :=
    ⟨rfl,rfl,calm.view,calm.locks,calm.silent⟩
  have gathered := alone_gathered l (fun id => Locking.mem_ascending.mp) moves keyed ready
  refine (blind.withFaults gathered).mono Rule.alone_monotone fun answer after left ended => ?_
  obtain ⟨⟨rfl,active,calm,pending,current,laid⟩,same⟩ := ended
  dsimp only [Session.conclude]
  rw [obeys_bind]
  have commits := Session.alone_commit_faulty active calm pending current never (same.trans faults)
  refine commits.mono Rule.alone_monotone fun answer after left ended => ?_
  obtain ⟨spent,failed,passed⟩ := ended
  rw [laid] at passed
  cases outcome : f.fails i with
  | true =>
    obtain ⟨rfl,idle⟩ := failed outcome
    exact ⟨spent,fun _ => ⟨rfl,idle⟩,Bool.noConfusion⟩
  | false =>
    obtain ⟨rfl,idle⟩ := passed outcome
    exact ⟨spent,Bool.noConfusion,fun _ => ⟨rfl,idle⟩⟩

end Transfer

namespace Ledger

variable {t : Transfer} {receipt : Receipt} {V' : View} {s : Ledger}

theorem alone_pessimisticTransfer (config : LedgerConfig) (retry : RetryConfig) (moves : t.Moves V receipt V')
    (keyed : V.Keyed) (own : σ) (idle : s.Idle V) (never : s.store.faults.rate = 0) :
    let f := s.store.faults
    let m := max retry.maxAttempts 1
    (pessimisticTransfer config t retry).Obeys Rule.alone (fun answer _ left =>
      (f.failing < m → (∃ r, answer = .ok r ∧ r.attempts = f.failing + 1 ∧ r.receipt = receipt) ∧
        left.Idle V' ∧ left.store.faults = f.spend (f.failing + 1)) ∧
      (m ≤ f.failing →
        answer = .error (.error (.attemptsExhausted m false (.unavailable "injected fault during commit"))) ∧
        left.Idle V ∧ left.store.faults = f.spend m)) own s := by
  intro f m
  let known (i : Nat) (s : Store) : Prop := { s with faults := {} }.Idle V ∧ s.faults = f.spend i
  let moved (r : Receipt) (s : Store) : Prop :=
    r = receipt ∧ { s with faults := {} }.Idle V' ∧ s.faults = f.spend (f.failing + 1)
  have sleeps (i : Nat) (d : Duration) (promise : Bool → Ledger → Prop) (s : Ledger) (before : known i s.store)
      (promised : ∀ s : Ledger, known i s.store → promise true s) : Rule.alone (.sleep d false) promise s :=
    promised { s with clock := s.clock + d } before
  have fails : ∀ i < f.failing, ∀ (own : σ) (s : Ledger), known i s.store →
      (t.ordered config.lock.locking).Obeys Rule.alone (fun answer _ s =>
        answer = .error (.error (.unavailable "injected fault during commit")) ∧ known (i + 1) s.store) own s := by
    intro i before own s ⟨idle,faults⟩
    refine (Transfer.alone_ordered_faulty _ moves keyed own idle never faults).mono Rule.alone_monotone ?_
    intro answer own left ⟨spent,failed,_⟩
    obtain ⟨rfl,idle⟩ := failed (Faults.fails_of_lt_failing before)
    exact ⟨rfl,idle,spent⟩
  have succeeds (own : σ) (s : Ledger) (before : known f.failing s.store) :
      (t.ordered config.lock.locking).Obeys Rule.alone
        (fun answer _ s => ∃ r, answer = .ok r ∧ moved r s.store) own s := by
    obtain ⟨idle,faults⟩ := before
    refine (Transfer.alone_ordered_faulty _ moves keyed own idle never faults).mono Rule.alone_monotone ?_
    intro answer own left ⟨spent,_,passed⟩
    obtain ⟨rfl,idle⟩ := passed f.fails_failing
    exact ⟨receipt,rfl,rfl,idle,spent⟩
  unfold pessimisticTransfer RetryPolicy.attempt RetryPolicy.run
  rw [obeys_bind,obeys_bind,obeys_bind,obeys_perform]
  refine Rule.alone_of_reply rfl ?_
  dsimp only
  have start : known 0 s.store := ⟨idle,f.spend_zero.symm⟩
  have loop := (retryPolicy "pessimistic_transfer" retry).obeys_loop_until (o := {}) (s := own) Rule.alone_monotone
    (fun i => Rule.alone_keeps (known i)) (fun r => Rule.alone_keeps (moved r)) sleeps rfl rfl rfl fails
    (m - 1) { started := s.clock } (fun _ => succeeds) (Nat.zero_le _) start
  refine loop.mono Rule.alone_monotone fun answer own left ended => ?_
  have attempts : 0 + (m - 1) + 1 = m := by omega
  dsimp only at ended
  rw [attempts] at ended
  rcases Nat.lt_or_ge f.failing m with lasts | short
  · obtain ⟨r,rfl,count,rfl,idle,spent⟩ := ended.1 (by omega)
    exact ⟨fun _ => ⟨⟨_,rfl,count,rfl⟩,idle,spent⟩,fun short => absurd lasts (Nat.not_lt.mpr short)⟩
  · obtain ⟨rfl,idle,spent⟩ := ended.2 (by omega)
    exact ⟨fun lasts => absurd short (Nat.not_le.mpr lasts),fun _ => ⟨rfl,idle,spent⟩⟩

theorem exists_moves {source target : Record} (apart : t.source ≠ t.target) (positive : 0 < t.amount.toInt)
    (source_here : s.store.records[t.source]? = some source)
    (target_here : s.store.records[t.target]? = some target) (keyed : s.store.view.Keyed)
    (funds : t.amount.toInt ≤ source.balance.toInt)
    (fits : target.balance.toInt + t.amount.toInt ≤ Int64.maxValue.toInt)
    (source_room : source.version + 1 < Version.limit) (target_room : target.version + 1 < Version.limit) :
    ∃ debited credited : Amount, debited.toInt = source.balance.toInt - t.amount.toInt ∧
      credited.toInt = target.balance.toInt + t.amount.toInt ∧
      t.Moves s.store.view ⟨t, debited, credited, source.version + 1, target.version + 1⟩
        ((s.store.view.set t.source ⟨t.source, debited, source.version + 1⟩).set t.target
          ⟨t.target, credited, target.version + 1⟩) := by
  have amount {n : Int} (low : Int64.minValue.toInt ≤ n) (high : n ≤ Int64.maxValue.toInt) :
      ∃ a : Amount, a.toInt = n := ⟨Int64.ofInt n,Int64.toInt_ofInt_of_le low (Int.lt_add_one_of_le high)⟩
  have least : Int64.minValue.toInt ≤ 0 := by decide
  have source_high := Int64.toInt_le source.balance
  have target_low := Int64.minValue_le_toInt target.balance
  obtain ⟨debited,debit⟩ := amount (n := source.balance.toInt - t.amount.toInt) (by omega) (by omega)
  obtain ⟨credited,credit⟩ := amount (n := target.balance.toInt + t.amount.toInt) (by omega) fits
  refine ⟨debited,credited,debit,credit,?_⟩
  have valid : t.validate = .ok () := by
    have some_amount : ¬ t.amount ≤ 0 := by simpa [Int64.le_iff_toInt_le] using positive
    rw [Transfer.validate,if_neg apart,if_neg some_amount]
  have next {id : RecordId} {r : Record} (here : s.store.records[id]? = some r) (room : r.version + 1 < Version.limit)
      (balance : Amount) : r.next balance = .ok ⟨id, balance, r.version + 1⟩ := by
    rw [← keyed id r here,Record.next_of_room room]
  exact .intro valid source_here target_here (Account.debit_eq_ok.mpr ⟨positive,funds,debit⟩)
    (Account.credit_eq_ok.mpr ⟨positive,credit⟩) (next source_here source_room debited)
    (next target_here target_room credited)

/-- A transfer that the records allow succeeds with the first commit that meets no fault, if it may make that
many attempts, and else gives up with none of it done. Each attempt takes one of the outcomes to come, and no
lock is left behind. -/
theorem transfer_outlasts_faults (config : LedgerConfig) (retry : RetryConfig) (t : Transfer) (own : σ)
    {source target : Record} (apart : t.source ≠ t.target) (positive : 0 < t.amount.toInt)
    (source_here : s.store.records[t.source]? = some source)
    (target_here : s.store.records[t.target]? = some target) (keyed : s.store.view.Keyed)
    (funds : t.amount.toInt ≤ source.balance.toInt)
    (fits : target.balance.toInt + t.amount.toInt ≤ Int64.maxValue.toInt)
    (source_room : source.version + 1 < Version.limit) (target_room : target.version + 1 < Version.limit)
    (free : ∀ x : RecordId, s.store.locks.table.owners[x]? = none) (never : s.store.faults.rate = 0) :
    let f := s.store.faults
    let k := (f.script ++ List.replicate f.failNext true).idxOf false
    let m := max retry.maxAttempts 1
    let ended := s.run ((pessimisticTransfer config t retry).start own)
    let left := ended.2.store
    (k < m → ∃ report debited credited, ended.1.1 = .ok report ∧ report.attempts = k + 1 ∧
      debited.toInt = source.balance.toInt - t.amount.toInt ∧
      credited.toInt = target.balance.toInt + t.amount.toInt ∧
      report.receipt = ⟨t, debited, credited, source.version + 1, target.version + 1⟩ ∧
      ∀ x : RecordId, left.records[x]? =
        if x = t.target then some ⟨t.target, credited, target.version + 1⟩
        else if x = t.source then some ⟨t.source, debited, source.version + 1⟩
        else s.store.records[x]?) ∧
    (m ≤ k →
      ended.1.1 = .error (.error (.attemptsExhausted m false (.unavailable "injected fault during commit"))) ∧
      ∀ x : RecordId, left.records[x]? = s.store.records[x]?) ∧
    left.faults = { f with
      script := f.script.drop (min (k + 1) m)
      failNext := f.failNext - (min (k + 1) m - f.script.length)
      injected := f.injected + min k m } ∧
    ∀ x : RecordId, left.locks.table.owners[x]? = none := by
  intro f k m ended left
  obtain ⟨debited,credited,debit,credit,moves⟩ :=
    exists_moves apart positive source_here target_here keyed funds fits source_room target_room
  have idle : s.Idle s.store.view := fun _ => ⟨rfl,fun x => (free x).trans (by simp),rfl,rfl,rfl⟩
  obtain ⟨lasts,short⟩ := run_of_alone (alone_pessimisticTransfer config retry moves keyed own idle never)
  have spent (n : Nat) (same : n = min (k + 1) m) (after : left.faults = f.spend n) : left.faults = { f with
      script := f.script.drop (min (k + 1) m)
      failNext := f.failNext - (min (k + 1) m - f.script.length)
      injected := f.injected + min k m } := by
    have counted : (f.tape.take (min (k + 1) m)).count true = min k m := f.count_take_min m
    rw [after,same,Faults.spend,counted]
  have unlocked {V' : View} (idle : ended.2.Idle V') (x : RecordId) : left.locks.table.owners[x]? = none :=
    ((idle 0).locks x).trans (by simp)
  rcases Nat.lt_or_ge k m with before | beyond
  · obtain ⟨⟨report,answered,attempts,receipt⟩,idle,after⟩ := lasts before
    refine ⟨fun _ => ⟨report,debited,credited,answered,attempts,debit,credit,receipt,fun x => ?_⟩,
      fun beyond => absurd before (Nat.not_lt.mpr beyond),spent _ (Nat.min_eq_left before).symm after,unlocked idle⟩
    exact congrFun (idle 0).view x
  · obtain ⟨answered,idle,after⟩ := short beyond
    refine ⟨fun before => absurd beyond (Nat.not_le.mpr before),fun _ => ⟨answered,fun x => ?_⟩,
      spent _ (Nat.min_eq_right (Nat.le_succ_of_le beyond)).symm after,unlocked idle⟩
    exact congrFun (idle 0).view x

def twiceFaulty : Ledger where
  store := { Store.seeded [(1, 50),(2, 20)] with faults := { script := [true], failNext := 1 } }

theorem transfer_outlasts_faults_twiceFaulty :
    ∃ report, (twiceFaulty.run ((pessimisticTransfer {} ⟨1, 2, 30⟩ { maxAttempts := 3 }).start ())).1.1 =
      .ok report ∧ report.attempts = 3 := by
  have source_here : twiceFaulty.store.records[1]? = some (.fresh 1 50) := by decide +kernel
  have target_here : twiceFaulty.store.records[2]? = some (.fresh 2 20) := by decide +kernel
  have outlasts := transfer_outlasts_faults {} { maxAttempts := 3 } ⟨1, 2, 30⟩ () (by decide) (by decide) source_here
    target_here (Store.keyed_seeded [(1, 50),(2, 20)]) (by decide) (by decide) (by decide) (by decide)
    (fun x => Std.TreeMap.getElem?_emptyc) rfl
  obtain ⟨report,_,_,answered,attempts,_⟩ := outlasts.1 (by decide)
  exact ⟨report,answered,attempts⟩

end Ledger

end VersionedLedger

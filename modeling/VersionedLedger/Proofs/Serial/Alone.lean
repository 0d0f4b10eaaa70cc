import VersionedLedger.Proofs.Lock.Rounds
import VersionedLedger.Proofs.Program.Locking
import VersionedLedger.Proofs.Program.Retry
import VersionedLedger.Proofs.Serial.Operation

/-! Operations that have a ledger to themselves. Where no lock is held and no fault is due, an operation
succeeds whenever the records allow it, returns what it is meant to return, and leaves the ledger as quiet
as it was. -/
namespace VersionedLedger

open Procedure View

/-- Every call is answered at once, and nothing happens in between. -/
def Rule.alone : Rule Ledger := fun c promise s => promise (s.answer c).1 (s.answer c).2

theorem Rule.alone_monotone : Rule.alone.Monotone := fun _ _ _ _ implies obeys => implies _ _ obeys

theorem Rule.alone_of_reply {s : Ledger} {c : Call} {promise : c.Reply → Ledger → Prop} {r : c.Reply}
    (reply : (s.answer c).1 = r) (promised : promise r (s.answer c).2) : Rule.alone c promise s := by
  unfold Rule.alone
  rwa [reply]

theorem Program.obeys_alone {α : Type} (goal : α → Ledger → Prop) (p : Program α) (s : Ledger) :
    p.Obeys Rule.alone goal s ↔ goal (s.run p).1 (s.run p).2 := by
  induction p generalizing s with
  | done a => rfl
  | call c next ih => exact ih (s.answer c).1 (s.answer c).2

def Faults.Silent (f : Faults) : Prop := f.script = [] ∧ f.failNext = 0 ∧ f.rate = 0

theorem Faults.check_silent {f : Faults} (silent : f.Silent) (number : Nat) (operation : String) :
    f.check number operation = (.ok (), f) := by
  obtain ⟨script,failNext,rate⟩ := silent
  simp [check,due,script,failNext,rate]

/-- One owner holds locks, and no fault is due. -/
structure Store.Calm (s : Store) (V : View) (owner : TxnId) (held : List RecordId) : Prop where
  view : s.view = V
  locks : ∀ x, s.locks.table.owners[x]? = if x ∈ held then some owner else none
  silent : s.faults.Silent

def Store.Idle (s : Store) (V : View) : Prop := ∀ owner, s.Calm V owner []

theorem Store.contains_eq (s : Store) (id : RecordId) : s.contains id = (s.view id).isSome :=
  Std.TreeMap.contains_eq_isSome_getElem?

variable {s : Ledger} {V V' : View} {owner : TxnId} {held : List RecordId} {id : RecordId} {σ : Type}

namespace Store.Calm

variable {s : Store}

theorem idle (calm : s.Calm V owner []) : s.Idle V := by
  intro b
  refine ⟨calm.view,fun x => ?_,calm.silent⟩
  rw [calm.locks x]
  simp

theorem of_mem {held' : List RecordId} (calm : s.Calm V owner held) (same : ∀ x, x ∈ held' ↔ x ∈ held) :
    s.Calm V owner held' := by
  refine ⟨calm.view,fun x => ?_,calm.silent⟩
  rw [calm.locks x]
  simp only [same x]

end Store.Calm

namespace Ledger

theorem store_answer_of_aside {c : Call} (aside : c.aside = true) : (s.answer c).2.store = s.store := by
  cases c with
  | draw => exact s.store_draw
  | report e => exact store_report s [e]
  | now | isCancelled | sleep | tally | countDeadlock => rfl
  | _ => cases aside

theorem acquire_of_free {r : Record} (view : s.store.view = V) (here : V id = some r)
    (free : ∀ b, s.store.locks.table.owners[id]? = some b → b = owner) (timeout : Option Duration) (existing : Bool) :
    ∃ locks : LockManager,
      s.acquire owner id timeout existing = (.ok (), { s with store := { s.store with locks } }) ∧
      ∀ x : RecordId, locks.table.owners[x]? = if x = id then some owner else s.store.locks.table.owners[x]? := by
  have decides := s.store.locks.decides_request owner id true
  have known : s.store.contains id = true := by rw [Store.contains_eq,view,here]; rfl
  unfold acquire requestLock
  rw [known]
  simp only [Bool.not_true,Bool.and_false,if_neg Bool.false_ne_true]
  generalize s.store.locks.request owner id true = result at decides
  obtain ⟨round,locks⟩ := result
  cases decides with
  | granted =>
    refine ⟨_,rfl,fun x => ?_⟩
    rw [LockTable.grant_owners]
    simp only [eq_comm]
  | held own =>
    refine ⟨_,rfl,fun x => ?_⟩
    rw [LockTable.stopWaiting_owners]
    split
    · next same => rw [same,own]
    · rfl
  | deadlock holder taken other | waiting holder taken other => exact absurd (free holder taken) other

end Ledger

namespace Rule

theorem alone_lookup {promise : Option Record → Ledger → Prop} {r : Record}
    (view : s.store.view = V) (here : V id = some r) (promised : promise (some r) s) :
    Rule.alone (.lookup id) promise s := by
  have stored : s.store.records[id]? = some r := (congrFun view id).trans here
  change promise s.store.records[id]? s
  rwa [stored]

theorem alone_begin {promise : TxnId → Ledger → Prop} (idle : s.store.Idle V)
    (promised : ∀ owner s', s'.store.Calm V owner [] → promise owner s') :
    Rule.alone .begin promise s := by
  have calm := idle s.store.nextTxn
  exact promised _ _ ⟨calm.view,calm.locks,calm.silent⟩

theorem alone_checkFault {promise : Except Error Unit → Ledger → Prop} {operation : String}
    (calm : s.store.Calm V owner held)
    (promised : ∀ s', s'.store.Calm V owner held → promise (.ok ()) s') :
    Rule.alone (.checkFault operation) promise s := by
  obtain ⟨n,drawn⟩ := (s.elapse s.store.faults.latency).exists_draw_eq
  change promise (s.checkFault operation).1 (s.checkFault operation).2
  unfold Ledger.checkFault
  rw [drawn]
  dsimp only
  have kept : (s.elapse s.store.faults.latency).store = s.store := rfl
  rw [kept,Faults.check_silent calm.silent]
  exact promised _ calm

theorem alone_acquire {promise : Outcome Unit → Ledger → Prop} {r : Record} {timeout : Option Duration}
    {existing : Bool} (calm : s.store.Calm V owner held) (here : V id = some r)
    (promised : ∀ s', s'.store.Calm V owner (id :: held) → promise (.ok ()) s') :
    Rule.alone (.acquire owner id timeout existing) promise s := by
  have free (b : TxnId) (taken : s.store.locks.table.owners[id]? = some b) : b = owner := by
    rw [calm.locks id] at taken
    split at taken <;> cases taken
    rfl
  obtain ⟨locks,granted,owners⟩ := s.acquire_of_free calm.view here free timeout existing
  change promise (s.acquire owner id timeout existing).1 (s.acquire owner id timeout existing).2
  rw [granted]
  refine promised _ ⟨calm.view,fun x => ?_,calm.silent⟩
  rw [owners,calm.locks x]
  grind

theorem alone_release {promise : Unit → Ledger → Prop} (calm : s.store.Calm V owner [id])
    (promised : ∀ s', s'.store.Idle V → promise () s') : Rule.alone (.release owner id) promise s := by
  have free : ∀ s' : Store, s'.Calm V owner [] → s'.Idle V := fun _ => Store.Calm.idle
  refine promised _ (free _ ⟨calm.view,fun x => ?_,calm.silent⟩)
  change (s.store.locks.table.release owner id).owners[x]? = _
  rw [LockTable.release_owners,calm.locks x]
  grind

theorem alone_releaseAll {promise : Unit → Ledger → Prop} (calm : s.store.Calm V owner held)
    (promised : ∀ s', s'.store.Idle V → promise () s') : Rule.alone (.releaseAll owner held) promise s := by
  have free : ∀ s' : Store, s'.Calm V owner [] → s'.Idle V := fun _ => Store.Calm.idle
  refine promised _ (free _ ⟨calm.view,fun x => ?_,calm.silent⟩)
  change (s.store.locks.table.releaseAll owner held).owners[x]? = _
  rw [LockTable.releaseAll_owners,calm.locks x]
  simp

theorem alone_install {promise : Outcome Record → Ledger → Prop} {expected : Version} {balance : Amount}
    {after : Record} (calm : s.store.Calm V owner held) (installs : Installs V id expected balance after V')
    (promised : ∀ s', s'.store.Calm V' owner held → promise (.ok after) s') :
    Rule.alone (.install id expected balance) promise s := by
  rw [← calm.view] at installs
  have written := Store.install_eq_of_installs installs
  obtain ⟨_,_,_,_,laid⟩ := Store.view_install_ok written
  obtain ⟨_,_,_,_,meant⟩ := installs
  change promise (s.store.install id expected balance).1 _
  rw [written]
  refine promised _ ⟨laid.trans meant.symm,fun x => ?_,?_⟩
  · change (s.store.install id expected balance).2.locks.table.owners[x]? = _
    rw [Store.locks_install,calm.locks x]
  · change (s.store.install id expected balance).2.faults.Silent
    rw [Store.faults_install]
    exact calm.silent

theorem alone_apply {promise : Except Error Unit → Ledger → Prop} {writes : WriteSet}
    (calm : s.store.Calm V owner held) (current : Current V writes)
    (promised : ∀ s', s'.store.Calm (overlay V writes) owner held → promise (.ok ()) s') :
    Rule.alone (.apply writes) promise s := by
  rw [← calm.view] at current
  have applied := Store.apply_eq_of_current current
  change promise (s.store.apply writes).1 _
  rw [applied]
  refine promised _ ⟨?_,fun x => ?_,?_⟩
  · rw [← calm.view]
    exact (Store.view_apply_ok applied).2
  · change (s.store.apply writes).2.locks.table.owners[x]? = _
    rw [Store.locks_apply,calm.locks x]
  · change (s.store.apply writes).2.faults.Silent
    rw [Store.faults_apply]
    exact calm.silent

theorem alone_keeps (known : Store → Prop) :
    Rule.alone.Keeps Call.aside fun s : Ledger => known s.store := by
  intro c aside promise s start replied
  apply replied
  rw [s.store_answer_of_aside aside]
  exact start

end Rule

namespace Session

variable {t : Transaction} {r : Record}

theorem alone_read {goal : Outcome Record → Transaction → Ledger → Prop} (active : t.ensureActive = .ok ())
    (view : s.store.view = V) (here : V id = some r) (unstaged : t.writes[r.id]? = none)
    (promised : goal (.ok r) t s) : (read id).Obeys Rule.alone goal t s := by
  simp only [read,ensureActive,obeys_bind,obeys_get,obeys_ofError,obeys_perform,active]
  apply Rule.alone_lookup view here
  dsimp only
  rw [obeys_bind,obeys_get]
  dsimp only
  rw [view_unstaged unstaged]
  exact promised

theorem alone_write {goal : Outcome Record → Transaction → Ledger → Prop} {balance : Amount}
    (active : t.ensureActive = .ok ()) (view : s.store.view = V) (here : V id = some r)
    (unstaged : t.writes[r.id]? = none)
    (promised : goal (r.next balance) (stageFirst t r balance) s) :
    (write id r.version balance).Obeys Rule.alone goal t s := by
  unfold write
  rw [obeys_bind]
  refine alone_read active view here unstaged ?_
  simp only [obeys_bind,obeys_get,obeys_set,obeys_ofOutcome]
  rw [stage_first active unstaged]
  exact promised

theorem alone_commit (active : t.ensureActive = .ok ()) (calm : s.store.Calm V t.id t.held)
    (pending : t.writes.isEmpty = false) (current : Current V t.writes) :
    commit.Obeys Rule.alone (fun answer _ s => answer = .ok () ∧ s.store.Idle (overlay V t.writes)) t s := by
  simp only [commit,obeys_bind,obeys_get]
  rw [active]
  dsimp only
  rw [obeys_ite,Transaction.isReadOnly,pending,if_neg Bool.false_ne_true,obeys_bind,obeys_perform]
  refine Rule.alone_checkFault calm fun s calm => ?_
  dsimp only
  rw [obeys_bind,obeys_perform]
  refine Rule.alone_apply calm current fun s calm => ?_
  simp only [releaseHeld,obeys_bind,obeys_get,obeys_set,obeys_modify,obeys_perform]
  exact Rule.alone_releaseAll calm fun s idle => ⟨trivial,idle⟩

end Session

namespace Transfer

variable {t : Transfer} {receipt : Receipt} {own : Transaction}

theorem alone_staged {source target : Record} (apart : t.source ≠ t.target) (keyed : V.Keyed)
    (active : own.ensureActive = .ok ()) (clean : own.writes = ∅) (view : s.store.view = V)
    (source_here : V t.source = some source) (target_here : V t.target = some target)
    (source_room : source.version + 1 < Version.limit) (target_room : target.version + 1 < Version.limit) :
    t.stage.Obeys Rule.alone (fun answer after left => left = s ∧
      match Account.debit source.balance t.amount, Account.credit target.balance t.amount with
      | .error e, _ | .ok _, .error e => answer = .error (.error e)
      | .ok debited, .ok credited =>
        answer = .ok ⟨t, debited, credited, source.version + 1, target.version + 1⟩ ∧
          after = { own with writes := t.staged source target debited credited }) own s := by
  have source_named := keyed t.source source source_here
  have target_named := keyed t.target target target_here
  have empty (id : RecordId) : own.writes[id]? = none := by rw [clean]; simp
  have unstaged_target (debited : Amount) : (Session.stageFirst own source debited).writes[target.id]? = none := by
    rw [← source_named,← target_named] at apart
    simp [Session.stageFirst,clean,apart]
  unfold stage
  rw [obeys_bind]
  refine Session.alone_read active view source_here (empty source.id) ?_
  dsimp only
  rw [obeys_bind]
  refine Session.alone_read active view target_here (empty target.id) ?_
  dsimp only
  rw [obeys_bind,obeys_ofError]
  cases Account.debit source.balance t.amount with
  | error e => exact ⟨rfl,rfl⟩
  | ok debited =>
    dsimp only [Outcome.ofError]
    rw [obeys_bind,obeys_ofError]
    cases Account.credit target.balance t.amount with
    | error e => exact ⟨rfl,rfl⟩
    | ok credited =>
      dsimp only [Outcome.ofError]
      rw [obeys_bind]
      refine Session.alone_write active view source_here (empty source.id) ?_
      rw [Record.next_of_room source_room]
      dsimp only
      rw [obeys_bind]
      refine Session.alone_write active view target_here (unstaged_target debited) ?_
      rw [Record.next_of_room target_room]
      refine ⟨rfl,rfl,?_⟩
      simp only [Session.stageFirst,staged,clean,source_named,target_named]

theorem alone_stage (moves : t.Moves V receipt V') (keyed : V.Keyed) (active : own.ensureActive = .ok ())
    (clean : own.writes = ∅) (calm : s.store.Calm V own.id own.held) :
    t.stage.Obeys Rule.alone (fun answer after s => answer = .ok receipt ∧ after.ensureActive = .ok () ∧
      s.store.Calm V after.id after.held ∧ after.writes.isEmpty = false ∧ Current V after.writes ∧
        overlay V after.writes = V') own s := by
  cases moves with
  | @intro source target source' target' debited credited valid source_here target_here debit credit
      source_next target_next =>
    have staged := alone_staged (source_ne_target valid) keyed active clean calm.view source_here target_here
      (Record.room_of_next source_next) (Record.room_of_next target_next)
    rw [debit,credit] at staged
    refine staged.mono Rule.alone_monotone fun answer after left ended => ?_
    obtain ⟨rfl,rfl,rfl⟩ := ended
    refine ⟨?_,active,calm,Std.TreeMap.isEmpty_insert,current_staged source_here target_here,?_⟩
    · rw [Record.next_eq source_next,Record.next_eq target_next]
    · exact overlay_staged (keyed _ _ source_here) (keyed _ _ target_here) source_next target_next

end Transfer

structure Transaction.Ready (t : Transaction) (V : View) (s : Ledger) : Prop where
  active : t.ensureActive = .ok ()
  clean : t.writes = ∅
  calm : s.store.Calm V t.id t.held

namespace Locking

variable (l : Locking) {t : Transaction}

theorem alone_acquire {r : Record} (ready : t.Ready V s) (here : V id = some r) :
    (l.acquire id).Obeys Rule.alone (fun answer t s => answer = .ok () ∧ t.Ready V s) t s := by
  -- a refusal is impossible, so nothing has to be known after one
  have keeps : Rule.alone.Keeps (Call.gives t.id) fun _ => False := fun _ _ _ _ refused => refused.elim
  refine l.obeys_acquire Rule.alone_monotone keeps (absurd ready.active)
    (fun _ _ _ _ refused => refused.elim) fun _ => ?_
  refine Rule.alone_acquire ready.calm here fun s calm => ⟨fun _ => ⟨rfl,?_,?_,?_⟩,absurd rfl⟩
  · rw [Transaction.ensureActive_noteAcquired,ready.active]
  · rw [Transaction.writes_noteAcquired,ready.clean]
  · rw [Transaction.id_noteAcquired]
    exact calm.of_mem fun x => Transaction.mem_noteAcquired

theorem alone_acquireAll {ids : List RecordId} (ready : t.Ready V s)
    (known : ∀ id ∈ ids, ∃ r, V id = some r) :
    (l.acquireAll ids).Obeys Rule.alone (fun answer t s => answer = .ok () ∧ t.Ready V s) t s := by
  let kept (ids : List RecordId) (t : Transaction) (s : Ledger) : Prop :=
    t.Ready V s ∧ ∀ id ∈ ids, ∃ r, V id = some r
  have start : kept ids t s := ⟨ready,known⟩
  refine l.obeys_acquireAll Rule.alone_monotone (fun id ids t s before => ?_) (fun ids t s before => ?_)
    (fun t s before => ⟨rfl,before.1⟩) start
  · obtain ⟨ready,known⟩ := before
    obtain ⟨⟨r,here⟩,rest⟩ := List.forall_mem_cons.mp known
    refine (l.alone_acquire ready here).mono Rule.alone_monotone fun answer t s granted => ?_
    obtain ⟨rfl,ready⟩ := granted
    refine ⟨fun e refused => ?_,fun _ => ⟨ready,rest⟩⟩
    cases refused
  · exact ⟨⟨before.1.active,before.1.clean,before.1.calm⟩,before.2⟩

end Locking

namespace Transfer

variable {t : Transfer} {receipt : Receipt}

theorem Moves.known (moves : t.Moves V receipt V') : ∀ id ∈ t.ids, ∃ r, V id = some r := by
  cases moves with
  | @intro source target _ _ _ _ _ source_here target_here =>
    intro id member
    rcases List.mem_pair.mp member with rfl | rfl
    · exact ⟨source,source_here⟩
    · exact ⟨target,target_here⟩

theorem Moves.valid (moves : t.Moves V receipt V') : t.validate = .ok () := by
  cases moves with
  | intro valid => exact valid

theorem alone_gathered (l : Locking) {ids : List RecordId} (same : ∀ id, id ∈ ids → id ∈ t.ids)
    (moves : t.Moves V receipt V') (keyed : V.Keyed) {own : Transaction} (ready : own.Ready V s) :
    (l.acquireAll ids >>= fun _ => t.stage : Session Receipt).Obeys Rule.alone (fun answer after s =>
      answer = .ok receipt ∧ after.ensureActive = .ok () ∧ s.store.Calm V after.id after.held ∧
        after.writes.isEmpty = false ∧ Current V after.writes ∧ overlay V after.writes = V') own s := by
  have known : ∀ id ∈ ids, ∃ r, V id = some r := fun id member => moves.known id (same id member)
  rw [obeys_bind]
  refine (l.alone_acquireAll ready known).mono Rule.alone_monotone ?_
  intro answer own s ended
  obtain ⟨rfl,ready⟩ := ended
  exact alone_stage moves keyed ready.active ready.clean ready.calm

theorem alone_run (l : Locking) {ids : List RecordId} (same : ∀ id, id ∈ ids → id ∈ t.ids)
    (moves : t.Moves V receipt V') (keyed : V.Keyed) (own : σ) (idle : s.store.Idle V) :
    (l.run ids t.stage).Obeys Rule.alone (fun answer _ s => answer = .ok receipt ∧ s.store.Idle V')
      own s := by
  unfold Locking.run withTransaction
  rw [obeys_bind,obeys_perform]
  refine Rule.alone_begin idle fun owner s calm => ?_
  dsimp only
  rw [obeys_bind,obeys_within,obeys_bind,obeys_outcome]
  have ready : (Transaction.start owner).Ready V s := ⟨rfl,rfl,calm⟩
  refine (alone_gathered l same moves keyed ready).mono Rule.alone_monotone ?_
  intro answer own s ended
  obtain ⟨rfl,active,calm,pending,current,laid⟩ := ended
  dsimp only [Session.conclude]
  rw [obeys_bind]
  refine (Session.alone_commit active calm pending current).mono Rule.alone_monotone ?_
  intro answer own s ended
  obtain ⟨rfl,idle⟩ := ended
  exact ⟨rfl,laid ▸ idle⟩

theorem alone_ordered (l : Locking) (moves : t.Moves V receipt V') (keyed : V.Keyed) (own : σ)
    (idle : s.store.Idle V) :
    (t.ordered l).Obeys Rule.alone (fun answer _ s => answer = .ok receipt ∧ s.store.Idle V') own s := by
  unfold ordered
  rw [obeys_bind,obeys_ofError,moves.valid]
  exact alone_run l (fun id => Locking.mem_ascending.mp) moves keyed own idle

theorem alone_coordinated (c : DeadlockCoordinator) (moves : t.Moves V receipt V') (keyed : V.Keyed) (own : σ)
    (idle : s.store.Idle V) :
    (c.transfer t).Obeys Rule.alone (fun answer _ s => answer = .ok receipt ∧ s.store.Idle V') own s := by
  have attempt : ∀ (own : σ) (s : Ledger), s.store.Idle V → (c.attempt t).Obeys Rule.alone
      (fun answer _ s => ∃ r, answer = .ok r ∧ r = receipt ∧ s.store.Idle V') own s := by
    intro own s idle
    simp only [DeadlockCoordinator.attempt,requested,Locking.withLocksInRequestOrder,obeys_bind,obeys_outcome]
    refine (alone_run c.locking (fun id => List.mem_eraseDups.mp) moves keyed own idle).mono
      Rule.alone_monotone ?_
    intro answer own s ended
    obtain ⟨rfl,idle⟩ := ended
    exact ⟨receipt,rfl,rfl,idle⟩
  unfold DeadlockCoordinator.transfer
  rw [obeys_bind,obeys_ofError,moves.valid]
  dsimp only [Outcome.ofError]
  rw [obeys_bind]
  unfold RetryPolicy.run
  rw [obeys_bind,obeys_perform]
  refine Rule.alone_keeps (·.Idle V) .now rfl _ s idle fun now s idle => ?_
  refine (c.policy.obeys_loop_succeeds Rule.alone_monotone (Rule.alone_keeps (·.Idle V))
    (fun r => Rule.alone_keeps fun s => r = receipt ∧ s.Idle V') rfl attempt _ _ idle).mono
    Rule.alone_monotone ?_
  intro answer own s ended
  obtain ⟨o,rfl,rfl,idle⟩ := ended
  exact ⟨rfl,idle⟩

end Transfer

namespace Operation

variable {o : Operation} {v : Written}

theorem alone_update {mutate : Amount → Outcome Amount} {before after : Record} {balance : Amount}
    (here : V id = some before) (computed : mutate before.balance = .ok balance)
    (next : before.next balance = .ok after) (idle : s.store.Idle V) :
    (update id mutate).procedure.Obeys Rule.alone
      (fun answer _ s => answer = .ok (.update ⟨before, after⟩) ∧ s.store.Idle (V.set id after)) () s := by
  have installs : Installs V id before.version balance after (V.set id after) := ⟨before,here,rfl,next,rfl⟩
  simp only [procedure,Optimistic.update,Optimistic.read,Optimistic.conditionalUpdate,obeys_bind,
    obeys_perform,obeys_ofOutcome,obeys_ofError]
  apply Rule.alone_lookup (idle 0).view here
  rw [obeys_pure]
  dsimp only
  rw [computed]
  refine Rule.alone_checkFault (idle 0) fun s calm => ?_
  apply Rule.alone_lookup calm.view here
  rw [obeys_ite,if_neg (by simp),obeys_bind,obeys_perform]
  refine Rule.alone_begin calm.idle fun owner s calm => ?_
  simp only [obeys_bind,obeys_perform,obeys_ofOutcome]
  refine Rule.alone_acquire calm here fun s calm => ?_
  refine Rule.alone_install calm installs fun s calm => ?_
  exact Rule.alone_release calm fun s idle => ⟨rfl,idle⟩

theorem alone_receipt {p : Procedure Unit Receipt} {receipt : Receipt}
    (obeys : p.Obeys Rule.alone (fun answer _ s => answer = .ok receipt ∧ s.store.Idle V') () s) :
    (p >>= fun receipt => pure (.transfer receipt) : Procedure Unit Written).Obeys Rule.alone
      (fun answer _ s => answer = .ok (.transfer receipt) ∧ s.store.Idle V') () s := by
  rw [obeys_bind]
  refine obeys.mono Rule.alone_monotone ?_
  intro answer _ s ended
  obtain ⟨rfl,idle⟩ := ended
  exact ⟨rfl,idle⟩

theorem run_of_achieves (achieves : o.Achieves V v V') (keyed : V.Keyed) (idle : s.store.Idle V) :
    (s.run o.program).1 = .ok v ∧ (s.run o.program).2.store.Idle V' := by
  have obeys : o.procedure.Obeys Rule.alone (fun answer _ s => answer = .ok v ∧ s.store.Idle V') () s := by
    cases achieves with
    | update here computed next => exact alone_update here computed next idle
    | ordered moves => exact alone_receipt (Transfer.alone_ordered _ moves keyed () idle)
    | coordinated moves => exact alone_receipt (Transfer.alone_coordinated _ moves keyed () idle)
  refine (Program.obeys_alone (fun answer s => answer = .ok v ∧ s.store.Idle V') o.program s).mp ?_
  rw [program,Program.obeys_bind]
  exact obeys

end Operation

end VersionedLedger

import VersionedLedger.Proofs.Store.Commit

/-! Work under locks in a transaction of its own. The closure is run only under all of the locks that were
asked for; however it ends, the locks are given back, nobody else loses or gains one, and records change only
if the work succeeds. The notes of the transaction cover every lock that it has, so giving back what is noted
gives back all. -/
namespace VersionedLedger

open Procedure

variable {σ α β : Type}

namespace Session

def unlock (id : RecordId) (noted : Bool) : Session Unit := do
  perform (.release (← get).id id)
  if noted then modify (·.noteReleased id)

/-- The closure may look at an error and go on; a crash ends it. -/
def attempt (p : Session α) : Session (Except Error α) := do
  match ← outcome p with
  | .ok a => pure (.ok a)
  | .error (.error e) => pure (.error e)
  | .error (.crash c) => crash c

/-- What a closure may do with its transaction: reads, writes, requests for locks and releases in any order,
each by what the others returned, and any end. -/
inductive Work : {α : Type} → Session α → Prop
  | pure {α : Type} (a : α) : Work (pure a)
  | fail {α : Type} (e : Error) : Work (fail e : Session α)
  | crash {α : Type} (c : Crash) : Work (crash c : Session α)
  | read (id : RecordId) : Work (read id)
  | write (id : RecordId) (expected : Version) (balance : Amount) : Work (write id expected balance)
  | lock (id : RecordId) (timeout : Duration) : Work (lock id timeout)
  | unlock (id : RecordId) (noted : Bool) : Work (unlock id noted)
  | attempt {α : Type} {p : Session α} (inner : Work p) : Work (attempt p)
  | bind {α β : Type} {p : Session α} {f : α → Session β} (first : Work p) (rest : ∀ a, Work (f a)) :
    Work (p >>= f)

end Session

namespace Ledger

variable {s : Ledger} {owner : TxnId} {id : RecordId} {timeout : Option Duration} {existing : Bool}

theorem acquire_cases (s : Ledger) (owner : TxnId) (id : RecordId) (timeout : Option Duration)
    (existing : Bool) :
    (s.acquire owner id timeout existing).2.store.records = s.store.records ∧
    ((s.acquire owner id timeout existing).1 = .ok () ∧
      (s.store.locks.table.owners[id]? = none ∨ s.store.locks.table.owners[id]? = some owner) ∧
      (∀ x : RecordId, (s.acquire owner id timeout existing).2.store.locks.table.owners[x]? =
        if x = id then some owner else s.store.locks.table.owners[x]?) ∨
    (∃ e, (s.acquire owner id timeout existing).1 = .error (.error e)) ∧
      ∀ x : RecordId, (s.acquire owner id timeout existing).2.store.locks.table.owners[x]? =
        s.store.locks.table.owners[x]?) := by
  have decides := s.store.locks.decides_request owner id true
  unfold acquire requestLock
  split
  · exact ⟨rfl,.inr ⟨⟨_,rfl⟩,fun _ => rfl⟩⟩
  · generalize s.store.locks.request owner id true = result at decides
    obtain ⟨round,locks⟩ := result
    cases decides with
    | granted free =>
      refine ⟨rfl,.inl ⟨rfl,.inl free,fun x => ?_⟩⟩
      change (s.store.locks.table.grant owner id).owners[x]? = _
      rw [LockTable.grant_owners]
      simp only [eq_comm]
    | held own =>
      refine ⟨rfl,.inl ⟨rfl,.inr own,fun x => ?_⟩⟩
      change (s.store.locks.table.stopWaiting owner).owners[x]? = _
      rw [LockTable.stopWaiting_owners]
      split
      · next same => rw [same,own]
      · rfl
    | deadlock => exact ⟨rfl,.inr ⟨⟨_,rfl⟩,fun _ => rfl⟩⟩
    | waiting => exact ⟨rfl,.inr ⟨⟨_,rfl⟩,fun _ => rfl⟩⟩

end Ledger

theorem Transaction.status_noteAcquired {t : Transaction} {id : RecordId} :
    (t.noteAcquired id).status = t.status := by
  unfold noteAcquired
  split <;> rfl

/-- Seen from the ledger before, only the locks of one active transaction have changed, and it has noted all
of those. -/
structure Transaction.Confined (before : Ledger) (owner : TxnId) (t : Transaction) (s : Ledger) : Prop where
  active : t.status = .active
  named : t.id = owner
  noted : ∀ x : RecordId, s.store.locks.table.owners[x]? = some owner → x ∈ t.held
  others : ∀ (x : RecordId) (b : TxnId), b ≠ owner →
    (s.store.locks.table.owners[x]? = some b ↔ before.store.locks.table.owners[x]? = some b)
  records : s.store.records = before.store.records

namespace Transaction.Confined

variable {before s s' : Ledger} {owner : TxnId} {t t' : Transaction}

theorem of_same (confined : t.Confined before owner s) (active : t'.status = .active) (named : t'.id = t.id)
    (noted : ∀ x, x ∈ t.held → x ∈ t'.held) : t'.Confined before owner s :=
  ⟨active,named.trans confined.named,fun x owned => noted x (confined.noted x owned),confined.others,
    confined.records⟩

theorem of_owners (confined : t.Confined before owner s)
    (owners : ∀ x : RecordId, s'.store.locks.table.owners[x]? = s.store.locks.table.owners[x]?)
    (records : s'.store.records = s.store.records) : t.Confined before owner s' where
  active := confined.active
  named := confined.named
  noted x owned := confined.noted x (by rwa [owners] at owned)
  others x b other := by rw [owners]; exact confined.others x b other
  records := records.trans confined.records

theorem lock (confined : t.Confined before owner s) {id : RecordId}
    (free : s.store.locks.table.owners[id]? = none ∨ s.store.locks.table.owners[id]? = some owner)
    (owners : ∀ x : RecordId, s'.store.locks.table.owners[x]? =
      if x = id then some owner else s.store.locks.table.owners[x]?)
    (records : s'.store.records = s.store.records) : (t.noteAcquired id).Confined before owner s' where
  active := by rw [status_noteAcquired,confined.active]
  named := by rw [id_noteAcquired,confined.named]
  noted x owned := by
    rw [mem_noteAcquired,List.mem_cons]
    rw [owners] at owned
    split at owned
    · next same => exact .inl same
    · exact .inr (confined.noted x owned)
  others x b other := by
    rw [owners,← confined.others x b other]
    split
    · next same =>
      subst same
      rcases free with free | own
      · simp [free,Ne.symm other]
      · simp [own]
    · rfl
  records := records.trans confined.records

theorem release (confined : t.Confined before owner s) {id : RecordId}
    (owners : ∀ x : RecordId, s'.store.locks.table.owners[x]? =
      if id = x ∧ s.store.locks.table.owners[x]? = some owner then none
      else s.store.locks.table.owners[x]?)
    (records : s'.store.records = s.store.records) : (t.noteReleased id).Confined before owner s' where
  active := confined.active
  named := confined.named
  noted x owned := by
    rw [owners] at owned
    split at owned
    · cases owned
    · next kept =>
      have differs : id ≠ x := fun same => kept ⟨same,owned⟩
      simpa [noteReleased,Ne.symm differs] using confined.noted x owned
  others x b other := (LockTable.other_of_freed owners x other).trans (confined.others x b other)
  records := records.trans confined.records

end Transaction.Confined

def Transaction.reads (t : Transaction) (V : View) (id : RecordId) : Outcome Record :=
  match t.ensureActive, V id with
  | .error e, _ => .error (.error e)
  | .ok (), none => .error (.error (.notFound id))
  | .ok (), some stored => t.view stored

namespace Session

open Transaction

variable {before s : Ledger} {owner : TxnId} {t : Transaction}

theorem alone_reads (s : Ledger) (t : Transaction) (id : RecordId) : (read id).Obeys Rule.alone
    (fun answer after left => answer = t.reads s.store.view id ∧ after = t ∧ left = s) t s := by
  simp only [read,ensureActive,obeys_bind,obeys_get,obeys_ofError,obeys_perform]
  unfold Transaction.reads
  cases t.ensureActive with
  | error e => exact ⟨rfl,trivial,trivial⟩
  | ok _ =>
    cases here : s.store.view id with
    | none => exact Rule.alone_of_reply here ⟨rfl,rfl,rfl⟩
    | some r => exact Rule.alone_of_reply here ⟨rfl,rfl,rfl⟩

theorem alone_stages (s : Ledger) (t : Transaction) (id : RecordId) (expected : Version) (balance : Amount) :
    (write id expected balance).Obeys Rule.alone (fun answer after left => left = s ∧
      ((∃ f, t.reads s.store.view id = .error f ∧ answer = .error f ∧ after = t) ∨
        ∃ seen, t.reads s.store.view id = .ok seen ∧ (answer, after) = t.stage seen expected balance)) t s := by
  unfold write
  rw [obeys_bind]
  refine (alone_reads s t id).mono Rule.alone_monotone fun answer after left same => ?_
  obtain ⟨found,rfl,rfl⟩ := same
  cases answer with
  | error f => exact ⟨rfl,.inl ⟨f,found.symm,rfl,rfl⟩⟩
  | ok seen =>
    simp only [obeys_bind,obeys_get,obeys_set,obeys_ofOutcome]
    exact ⟨trivial,.inr ⟨seen,found.symm,rfl⟩⟩

theorem stage_eq (t : Transaction) (seen : Record) (expected : Version) (balance : Amount) :
    ∃ writes, (t.stage seen expected balance).2 = { t with writes } := by
  unfold Transaction.stage
  split
  · exact ⟨_,rfl⟩
  · split <;> exact ⟨_,rfl⟩

theorem confined_write (confined : t.Confined before owner s) (id : RecordId) (expected : Version)
    (balance : Amount) :
    (write id expected balance).Obeys Rule.alone (fun _ t s => t.Confined before owner s) t s := by
  refine (alone_stages s t id expected balance).mono Rule.alone_monotone fun answer after left ends => ?_
  obtain ⟨rfl,⟨_,_,_,rfl⟩ | ⟨seen,_,staged⟩⟩ := ends
  · exact confined
  · obtain ⟨writes,same⟩ := stage_eq t seen expected balance
    obtain rfl : after = { t with writes } := (congrArg Prod.snd staged).trans same
    exact confined.of_same confined.active rfl fun _ noted => noted

theorem confined_lock (confined : t.Confined before owner s) (id : RecordId) (timeout : Duration) :
    (lock id timeout).Obeys Rule.alone (fun _ t s => t.Confined before owner s) t s := by
  obtain rfl := confined.named
  simp only [lock,ensureActive,obeys_bind,obeys_get,obeys_ofError,obeys_perform,obeys_ofOutcome,
    obeys_modify]
  cases t.ensureActive with
  | error e => exact confined
  | ok _ =>
    obtain ⟨records,⟨granted,free,owners⟩ | ⟨⟨e,refused⟩,owners⟩⟩ :=
      s.acquire_cases t.id id (some timeout) true
    · exact Rule.alone_of_reply granted (confined.lock free owners records)
    · exact Rule.alone_of_reply refused (confined.of_owners owners records)

theorem confined_unlock (confined : t.Confined before owner s) (id : RecordId) (noted : Bool) :
    (unlock id noted).Obeys Rule.alone (fun _ t s => t.Confined before owner s) t s := by
  obtain rfl := confined.named
  have released : (t.noteReleased id).Confined before t.id (s.onLocks (·.release t.id id)) :=
    confined.release (fun x => LockTable.release_owners x) rfl
  simp only [unlock,obeys_bind,obeys_get,obeys_perform,obeys_ite,obeys_modify]
  unfold Rule.alone
  dsimp only
  split
  · exact released
  · exact released.of_same confined.active rfl fun _ kept => (List.mem_filter.mp kept).1

theorem Work.confined {p : Session α} (work : p.Work) (confined : t.Confined before owner s) :
    p.Obeys Rule.alone (fun _ t s => t.Confined before owner s) t s := by
  induction work generalizing t s with
  | pure a => exact confined
  | fail e => exact confined
  | crash c => exact confined
  | read id =>
    refine (alone_reads s t id).mono Rule.alone_monotone fun answer after left same => ?_
    obtain ⟨_,rfl,rfl⟩ := same
    exact confined
  | write id expected balance => exact confined_write confined id expected balance
  | lock id timeout => exact confined_lock confined id timeout
  | unlock id noted => exact confined_unlock confined id noted
  | attempt _ ih =>
    simp only [Session.attempt,obeys_bind,obeys_outcome]
    refine (ih confined).mono Rule.alone_monotone fun answer after left confined => ?_
    rcases answer with (e | c) | a <;> exact confined
  | bind _ _ first rest =>
    rw [obeys_bind]
    refine (first confined).mono Rule.alone_monotone fun answer after left confined => ?_
    cases answer with
    | error e => exact confined
    | ok a => exact rest a confined

end Session

namespace Locking

open Session Transaction

variable {before s : Ledger} {owner : TxnId} {t : Transaction}

theorem alone_releases (held : List RecordId) (owner : TxnId) (t : Transaction) (s : Ledger) :
    (forIn held PUnit.unit fun id _ => do
        perform (.release owner id)
        pure (.yield PUnit.unit) : Session PUnit).Obeys Rule.alone (fun answer after left =>
      answer = .ok ⟨⟩ ∧ after = t ∧ left.store.records = s.store.records ∧
        ∀ x : RecordId, left.store.locks.table.owners[x]? =
          if x ∈ held ∧ s.store.locks.table.owners[x]? = some owner then none
          else s.store.locks.table.owners[x]?) t s := by
  induction held generalizing s with
  | nil =>
    rw [List.forIn_nil]
    exact ⟨rfl,rfl,rfl,by simp⟩
  | cons id held ih =>
    rw [List.forIn_cons]
    simp only [obeys_bind,obeys_perform,obeys_pure]
    refine Rule.alone_of_reply rfl ?_
    refine (ih (s.onLocks (·.release owner id))).mono Rule.alone_monotone fun answer after left ends => ?_
    obtain ⟨rfl,rfl,records,owners⟩ := ends
    refine ⟨rfl,rfl,records,fun x => ?_⟩
    have first : (s.onLocks (·.release owner id)).store.locks.table.owners[x]? = _ :=
      LockTable.release_owners x
    rw [owners,first]
    grind

/-- The locks asked for so far are those that the transaction has, in the order of the requests. -/
structure Exactly (before : Ledger) (owner : TxnId) (ids : List RecordId) (t : Transaction) (s : Ledger) :
    Prop extends t.Confined before owner s where
  held : t.held = ids
  owned : ∀ x ∈ ids, s.store.locks.table.owners[x]? = some owner

structure Emptied (before : Ledger) (owner : TxnId) (t : Transaction) (s : Ledger) : Prop
    extends t.Confined before owner s where
  held : t.held = []

theorem emptied_releasePartial (confined : t.Confined before owner s) (e : Error) :
    (releasePartial >>= fun _ => fail e : Session Unit).Obeys Rule.alone
      (fun answer t s => answer = .error (.error e) ∧ Emptied before owner t s) t s := by
  obtain rfl := confined.named
  simp only [releasePartial,obeys_bind,obeys_get,obeys_set]
  refine (alone_releases t.held t.id { t with held := [] } s).mono Rule.alone_monotone ?_
  intro answer after left ends
  obtain ⟨rfl,rfl,records,owners⟩ := ends
  refine ⟨rfl,⟨confined.active,rfl,fun x owned => ?_,fun x b other => ?_,records.trans confined.records⟩,rfl⟩
  · exact absurd owned (LockTable.not_owner_of_freed owners (confined.noted x))
  · exact (LockTable.other_of_freed owners x other).trans (confined.others x b other)

theorem exactly_acquire (l : Locking) {ids : List RecordId} {id : RecordId} (new : id ∉ ids)
    (exactly : Exactly before owner ids t s) : (l.acquire id).Obeys Rule.alone (fun answer t s =>
      (answer = .ok () → Exactly before owner (ids ++ [id]) t s) ∧
      ∀ f, answer = .error f → (∃ e, f = .error e) ∧ Emptied before owner t s) t s := by
  obtain rfl := exactly.named
  have confined := exactly.toConfined
  simp only [acquire,lock,Session.ensureActive,obeys_bind,obeys_outcome,obeys_get,obeys_ofError,
    obeys_perform,obeys_ofOutcome,obeys_modify,ensureActive_eq_ok.mpr confined.active]
  obtain ⟨records,⟨granted,free,owners⟩ | ⟨⟨e,refused⟩,owners⟩⟩ :=
    s.acquire_cases t.id id (some l.timeout) true
  · refine Rule.alone_of_reply granted ⟨fun _ => ?_,fun f failed => ?_⟩
    · refine ⟨confined.lock free owners records,?_,fun x member => ?_⟩
      · rw [noteAcquired,exactly.held,if_neg new]
      · change (s.acquire t.id id (some l.timeout) true).2.store.locks.table.owners[x]? = some t.id
        rw [owners]
        split
        · rfl
        · next other =>
          refine exactly.owned x ?_
          simpa [other] using member
    · cases failed
  · refine Rule.alone_of_reply refused ?_
    refine (emptied_releasePartial (confined.of_owners owners records) e).mono Rule.alone_monotone ?_
    intro answer after left ends
    obtain ⟨rfl,emptied⟩ := ends
    refine ⟨fun granted => ?_,fun f failed => ?_⟩
    · cases granted
    · cases failed
      exact ⟨⟨e,rfl⟩,emptied⟩

theorem exactly_acquireAll (l : Locking) {ids : List RecordId} (distinct : ids.Nodup)
    (exactly : Exactly before owner [] t s) : (l.acquireAll ids).Obeys Rule.alone (fun answer t s =>
      (answer = .ok () → Exactly before owner ids t s) ∧
      ∀ f, answer = .error f → (∃ e, f = .error e) ∧ Emptied before owner t s) t s := by
  let kept (rest : List RecordId) (t : Transaction) (s : Ledger) : Prop :=
    ∃ done, done ++ rest = ids ∧ Exactly before owner done t s
  have start : kept ids t s := ⟨[],rfl,exactly⟩
  refine l.obeys_acquireAll Rule.alone_monotone (fun id rest t s before => ?_) (fun ids t s before => ?_)
    (fun t s before => ⟨fun _ => ?_,fun f failed => ?_⟩) start
  · obtain ⟨done,split,exactly⟩ := before
    have new : id ∉ done := by
      rw [← split] at distinct
      exact fun member => (List.nodup_append.mp distinct).2.2 id member id List.mem_cons_self rfl
    refine (l.exactly_acquire new exactly).mono Rule.alone_monotone fun answer t s ended => ?_
    obtain ⟨granted,refused⟩ := ended
    refine ⟨fun e failed => ⟨fun done => ?_,refused⟩,fun done => ⟨_,?_,granted done⟩⟩
    · cases failed.symm.trans done
    · rw [List.append_assoc,List.singleton_append,split]
  · obtain ⟨done,split,exactly⟩ := before
    exact ⟨done,split,exactly.toConfined.of_owners (fun _ => rfl) rfl,exactly.held,exactly.owned⟩
  · obtain ⟨done,split,exactly⟩ := before
    rw [List.append_nil] at split
    rwa [← split]
  · cases failed

end Locking

namespace Ledger

variable (s : Ledger)

theorem run_start_bind (p : Procedure σ α) (f : α → Procedure σ β) (own : σ) :
    s.run ((p >>= f).start own) = match s.run (p.start own) with
      | ((.ok a, own), s) => s.run ((f a).start own)
      | ((.error e, own), s) => ((.error e, own), s) := by
  unfold run
  rw [start_bind,Program.runWith_bind]
  generalize (p.start own).runWith answer s = result
  obtain ⟨⟨e | a,own⟩,s⟩ := result <;> rfl

theorem run_start_outcome (p : Procedure σ α) (own : σ) :
    s.run (p.outcome.start own) =
      ((.ok (s.run (p.start own)).1.1, (s.run (p.start own)).1.2), (s.run (p.start own)).2) := by
  rw [start_outcome,run,Program.runWith_bind]
  rfl

theorem run_start_within {τ : Type} (inner : τ) (p : Procedure τ α) (own : σ) :
    s.run ((within inner p : Procedure σ (Outcome α × τ)).start own) =
      ((.ok (s.run (p.start inner)).1, own), (s.run (p.start inner)).2) := by
  rw [start_within,run,Program.runWith_bind]
  rfl

theorem run_withTransaction (body : Session α) (own : σ) :
    let ended := (s.answer .begin).2.run
      ((body.outcome >>= Session.conclude).start (Transaction.start s.store.nextTxn))
    s.run ((withTransaction body).start own) = ((ended.1.1, own), ended.2) := by
  intro ended
  have begun : s.run ((perform .begin : Procedure σ TxnId).start own) =
      ((.ok s.store.nextTxn, own), (s.answer .begin).2) := rfl
  unfold withTransaction
  rw [run_start_bind,begun]
  dsimp only
  rw [run_start_bind,run_start_within]
  rfl

end Ledger

namespace Session

open Transaction

variable {before s left : Ledger} {owner : TxnId} {t : Transaction}

/-- The owner has no lock, and all others have what they had before. -/
structure Closed (before : Ledger) (owner : TxnId) (left : Ledger) : Prop where
  free : ∀ x : RecordId, left.store.locks.table.owners[x]? ≠ some owner
  others : ∀ (x : RecordId) (b : TxnId), b ≠ owner →
    (left.store.locks.table.owners[x]? = some b ↔ before.store.locks.table.owners[x]? = some b)

theorem closed_of_releaseAll (confined : t.Confined before owner s)
    (locks : left.store.locks = s.store.locks.releaseAll t.id t.held) : Closed before owner left := by
  obtain rfl := confined.named
  have owners (x : RecordId) : left.store.locks.table.owners[x]? =
      if x ∈ t.held ∧ s.store.locks.table.owners[x]? = some t.id then none
      else s.store.locks.table.owners[x]? := by
    rw [locks]
    exact LockTable.releaseAll_owners t.held x
  refine ⟨fun x => LockTable.not_owner_of_freed owners (confined.noted x),fun x b other => ?_⟩
  exact (LockTable.other_of_freed owners x other).trans (confined.others x b other)

theorem alone_conclude_error (active : t.status = .active) (f : Failure) (s : Ledger) :
    (conclude (.error f : Outcome α)).Obeys Rule.alone (fun answer _ left =>
      answer = .error f ∧ left = s.countAbort.giveBack t) t s := by
  cases f with
  | error e =>
    refine (alone_abort_fail active e s).mono Rule.alone_monotone fun answer after left ends => ?_
    exact ⟨ends.1,ends.2.2⟩
  | crash c =>
    have still : t.isActive = true := isActive_iff.mpr active
    simp only [conclude,obeys_bind,obeys_get,obeys_ite,if_pos still]
    refine (alone_abort active _ s).mono Rule.alone_monotone fun answer after left ends => ?_
    obtain ⟨rfl,_,rfl⟩ := ends
    exact ⟨rfl,rfl⟩

theorem closed_conclude (confined : t.Confined before owner s) (answer : Outcome α) :
    (conclude answer).Obeys Rule.alone (fun answer _ left => Closed before owner left ∧
      ∀ f, answer = .error f → left.store.view = before.store.view) t s := by
  have unchanged : s.store.view = before.store.view := by
    unfold Store.view
    rw [confined.records]
  cases answer with
  | error f =>
    refine (alone_conclude_error confined.active f s).mono Rule.alone_monotone ?_
    intro answer after left ends
    obtain ⟨rfl,rfl⟩ := ends
    exact ⟨closed_of_releaseAll confined rfl,fun _ _ => unchanged⟩
  | ok a =>
    unfold conclude
    rw [obeys_bind]
    refine (alone_commits s t).mono Rule.alone_monotone fun answer after left commits => ?_
    have closed := closed_of_releaseAll confined commits.locks_eq
    cases answer with
    | error f => exact ⟨closed,fun _ _ => commits.view_of_error.trans unchanged⟩
    | ok _ =>
      refine ⟨closed,fun f failed => ?_⟩
      cases failed

end Session

namespace Locking

open Session Transaction

variable (l : Locking) (ids : List RecordId) (s : Ledger)

def asked : (Outcome Unit × Transaction) × Ledger :=
  (s.answer .begin).2.run ((l.acquireAll (ascending ids)).start (.start s.store.nextTxn))

theorem run_withLocks (body : Session α) (own : σ) :
    let ended := match l.asked ids s with
      | ((.ok _, t), begun) => begun.run ((body.outcome >>= conclude).start t)
      | ((.error f, t), begun) => begun.run ((conclude (.error f : Outcome α)).start t)
    s.run ((l.withLocks ids body).start own) = ((ended.1.1, own), ended.2) := by
  intro ended
  have same : (s.answer .begin).2.run (((do l.acquireAll (ascending ids); body : Session α).outcome >>=
      conclude).start (.start s.store.nextTxn)) = ended := by
    unfold ended
    rw [Ledger.run_start_bind,Ledger.run_start_outcome,Ledger.run_start_bind]
    unfold asked
    generalize (s.answer .begin).2.run ((l.acquireAll (ascending ids)).start _) = result
    obtain ⟨⟨f | _,t⟩,begun⟩ := result
    · rfl
    · dsimp only
      rw [Ledger.run_start_bind,Ledger.run_start_outcome]
  rw [← same]
  exact s.run_withTransaction _ own

variable {l ids s} {t : Transaction} {begun : Ledger} {answer : Outcome Unit}

theorem asked_cases (fresh : ∀ x : RecordId, s.store.locks.table.owners[x]? ≠ some s.store.nextTxn)
    (asked : l.asked ids s = ((answer, t), begun)) :
    (answer = .ok () → Exactly s s.store.nextTxn (ascending ids) t begun) ∧
      ∀ f, answer = .error f → (∃ e, f = .error e) ∧ Emptied s s.store.nextTxn t begun := by
  have distinct : (ascending ids).Nodup := (pairwise_ascending ids).imp Nat.ne_of_lt
  have confined : (Transaction.start s.store.nextTxn).Confined s s.store.nextTxn (s.answer .begin).2 :=
    ⟨rfl,rfl,fun x owned => absurd owned (fresh x),fun _ _ _ => Iff.rfl,rfl⟩
  have start : Exactly s s.store.nextTxn [] (.start s.store.nextTxn) (s.answer .begin).2 :=
    ⟨confined,rfl,fun _ member => absurd member List.not_mem_nil⟩
  have ended := (Program.obeys_alone _ _ _).mp (l.exactly_acquireAll distinct start)
  unfold Locking.asked at asked
  rw [asked] at ended
  exact ended

/-- Work under locks runs only when its transaction has exactly the locks that were asked for, each once and in
ascending order. In the end, be it a value, an error or a crash, the transaction has no lock, all others have
the locks that they had, and without a value the records are as they were. -/
theorem withLocks_scoped (l : Locking) (ids : List RecordId) {body : Session α} (work : body.Work) (own : σ)
    {s : Ledger} (fresh : ∀ x : RecordId, s.store.locks.table.owners[x]? ≠ some s.store.nextTxn) :
    ((∃ e left, ∀ other : Session α,
        s.run ((l.withLocks ids other).start own) = ((.error (.error e), own), left)) ∨
      ∃ (t : Transaction) (begun : Ledger), t.id = s.store.nextTxn ∧
        t.held.Pairwise (· < ·) ∧ (∀ x, x ∈ t.held ↔ x ∈ ids) ∧
        (∀ x : RecordId, begun.store.locks.table.owners[x]? = some t.id ↔ x ∈ ids) ∧
        ∀ other : Session α, s.run ((l.withLocks ids other).start own) =
          (((begun.run ((other.outcome >>= conclude).start t)).1.1, own),
            (begun.run ((other.outcome >>= conclude).start t)).2)) ∧
    ∃ (answer : Outcome α) (left : Ledger), s.run ((l.withLocks ids body).start own) = ((answer, own), left) ∧
      (∀ x : RecordId, left.store.locks.table.owners[x]? ≠ some s.store.nextTxn) ∧
      (∀ (x : RecordId) (b : TxnId), b ≠ s.store.nextTxn →
        (left.store.locks.table.owners[x]? = some b ↔ s.store.locks.table.owners[x]? = some b)) ∧
      (∀ f, answer = .error f → ∀ x : RecordId, left.store.records[x]? = s.store.records[x]?) := by
  have runs (other : Session α) := l.run_withLocks ids s other own
  cases asked : l.asked ids s with
  | mk first begun =>
    obtain ⟨answer,t⟩ := first
    obtain ⟨granted,refused⟩ := asked_cases fresh asked
    rw [asked] at runs
    cases answer with
    | error f =>
      obtain ⟨⟨e,rfl⟩,emptied⟩ := refused f rfl
      obtain ⟨failed,left⟩ := (Program.obeys_alone _ _ _).mp
        (@alone_conclude_error α _ emptied.active (.error e) begun)
      obtain ⟨closed,unchanged⟩ := (Program.obeys_alone _ _ _).mp
        (closed_conclude emptied.toConfined (.error (.error e) : Outcome α))
      refine ⟨.inl ⟨e,begun.countAbort.giveBack t,fun other => (runs other).trans ?_⟩,
        _,_,runs body,closed.free,closed.others,fun _ _ => congrFun (unchanged _ failed)⟩
      dsimp only
      rw [failed,left]
    | ok _ =>
      have exactly := granted rfl
      have concluded : (body.outcome >>= conclude).Obeys Rule.alone (fun answer _ left =>
          Closed s s.store.nextTxn left ∧ ∀ f, answer = .error f → left.store.view = s.store.view) t begun := by
        rw [obeys_bind,obeys_outcome]
        exact (work.confined exactly.toConfined).mono Rule.alone_monotone
          fun answer t begun confined => closed_conclude confined answer
      obtain ⟨closed,unchanged⟩ := (Program.obeys_alone _ _ _).mp concluded
      refine ⟨.inr ⟨t,begun,exactly.named,?_,fun x => ?_,fun x => ⟨fun owned => ?_,fun member => ?_⟩,runs⟩,
        _,_,runs body,closed.free,closed.others,
        fun f failed => congrFun (unchanged f failed)⟩
      · rw [exactly.held]
        exact pairwise_ascending ids
      · rw [exactly.held]
        exact mem_ascending
      · rw [exactly.named] at owned
        have noted := exactly.noted x owned
        rw [exactly.held] at noted
        exact mem_ascending.mp noted
      · rw [exactly.named]
        exact exactly.owned x (mem_ascending.mpr member)

def oneHeld : Ledger where
  store := { Store.seeded [(1, 100),(2, 50),(3, 7),(4, 0)] with
    locks := { table := { owners := (∅ : Std.TreeMap RecordId TxnId).insert 4 5 } }
    nextTxn := 6 }

/-- Writes a record, is refused one lock and granted another, gives one back, and crashes. -/
def crashing : Session Unit := do
  let r ← read 1
  let _ ← write 1 r.version 0
  let _ ← attempt (lock 4 10)
  lock 3 10
  unlock 2 false
  crash (.raised "boom")

theorem work_crashing : crashing.Work :=
  .bind (.read 1) fun r => .bind (.write 1 r.version 0) fun _ => .bind (.attempt (.lock 4 10)) fun _ =>
    .bind (.lock 3 10) fun _ => .bind (.unlock 2 false) fun _ => .crash _

theorem withLocks_scoped_crash :
    ∃ (answer : Outcome Unit) (left : Ledger),
      oneHeld.run ((withLocks { timeout := 1000 } [2,1,2] crashing).start ()) = ((answer, ()), left) ∧
      answer = .error (.crash (.raised "boom")) ∧
      (∀ x : RecordId, left.store.locks.table.owners[x]? ≠ some 6) ∧
      left.store.locks.table.owners[(4 : RecordId)]? = some 5 ∧
      left.store.records[(1 : RecordId)]? = some ⟨1,100,0⟩ := by
  have fresh (x : RecordId) : oneHeld.store.locks.table.owners[x]? ≠ some oneHeld.store.nextTxn := by
    change ((∅ : Std.TreeMap RecordId TxnId).insert 4 5)[x]? ≠ some 6
    rw [Std.TreeMap.getElem?_insert]
    split <;> simp
  obtain ⟨_,answer,left,ran,free,others,unchanged⟩ :=
    withLocks_scoped { timeout := 1000 } [2,1,2] work_crashing () fresh
  have ended : (oneHeld.run ((withLocks { timeout := 1000 } [2,1,2] crashing).start ())).1.1 =
      .error (.crash (.raised "boom")) := by decide +kernel
  have crashed : answer = .error (.crash (.raised "boom")) := by rw [← ended,ran]
  refine ⟨answer,left,ran,crashed,free,(others 4 5 (by decide)).mpr (by decide),?_⟩
  exact (unchanged _ crashed 1).trans (by decide +kernel)

end Locking

end VersionedLedger

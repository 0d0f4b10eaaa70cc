import Mathlib.Logic.Function.Basic
import VersionedLedger.Proofs.Store.Scope

/-! The calls on a store with any number of open transactions, one after the other. A call is made on the store
itself or in one of the transactions, which are numbered in the order in which they began. What a call can do to
the records and to the staged writes is listed once. -/
namespace VersionedLedger

open Procedure View

inductive StoreCall
  | get (id : RecordId)
  | insert (id : RecordId) (balance : Amount)
  | conditionalUpdate (id : RecordId) (expected : Version) (balance : Amount)
  | begin
  | read (n : Nat) (id : RecordId)
  | write (n : Nat) (id : RecordId) (expected : Version) (balance : Amount)
  | lock (n : Nat) (id : RecordId) (timeout : Duration)
  | unlock (n : Nat) (id : RecordId) (noted : Bool)
  | release (owner : TxnId) (id : RecordId)
  | commit (n : Nat)
  | abort (n : Nat) (reason : String)
  | setFaults (setting : FaultSetting)

inductive StoreReply
  | record (answer : Outcome Record)
  | done (answer : Outcome Unit)
  | began (n : Nat)
  | unknown
  deriving DecidableEq

def StoreCall.counts : StoreCall → Bool
  | .conditionalUpdate .. | .write .. | .commit _ => true
  | _ => false

def StoreReply.succeeds : StoreReply → Bool
  | .record (.ok _) | .done (.ok _) => true
  | _ => false

abbrev Answered := StoreCall × StoreReply

namespace Answered

def updates (id : RecordId) : Answered → Bool
  | (.conditionalUpdate x _ _, .record (.ok _)) => x = id
  | _ => false

def writes (n : Nat) (id : RecordId) : Answered → Bool
  | (.write m x _ _, .record (.ok _)) => m = n ∧ x = id
  | _ => false

def commits? : Answered → Option Nat
  | (.commit n, .done (.ok _)) => some n
  | _ => none

structure Silent (m : Answered) : Prop where
  updates : ∀ id, m.updates id = false
  writes : ∀ n id, m.writes n id = false
  commits : m.commits? = none

theorem silent_of_aside {c : StoreCall} (aside : c.counts = false) (r : StoreReply) : Silent (c, r) := by
  cases c with
  | conditionalUpdate | write | commit => cases aside
  | _ => exact ⟨fun _ => rfl,fun _ _ => rfl,rfl⟩

theorem silent_of_fails {r : StoreReply} (c : StoreCall) (fails : r.succeeds = false) : Silent (c, r) := by
  refine ⟨fun id => ?_,fun n id => ?_,?_⟩
  · unfold updates
    split
    · next same =>
      cases same
      cases fails
    · rfl
  · unfold writes
    split
    · next same =>
      cases same
      cases fails
    · rfl
  · unfold commits?
    split
    · next same =>
      cases same
      cases fails
    · rfl

end Answered

theorem Procedure.run_of_alone {σ α : Type} {goal : Outcome α → σ → Ledger → Prop} {p : Procedure σ α} {t : σ}
    {s : Ledger} (obeys : p.Obeys Rule.alone goal t s) :
    goal (s.run (p.start t)).1.1 (s.run (p.start t)).1.2 (s.run (p.start t)).2 := by
  let ends (r : Outcome α × σ) : Ledger → Prop := goal r.1 r.2
  exact (Program.obeys_alone ends (p.start t) s).mp obeys

/-- A ledger and the transactions that have begun on it. -/
structure Sessions where
  ledger : Ledger
  opened : List Transaction := []

namespace Sessions

variable {α : Type}

abbrev view (s : Sessions) : View := s.ledger.store.view

def staged (s : Sessions) (n : Nat) : Option (TransactionStatus × WriteSet) :=
  (s.opened[n]?).map fun t => (t.status, t.writes)

def within (s : Sessions) (n : Nat) (reply : Outcome α → StoreReply) (p : Session α) : StoreReply × Sessions :=
  match s.opened[n]? with
  | none => (.unknown, s)
  | some t =>
    let ((answer, t), ledger) := s.ledger.run (p.start t)
    (reply answer, { ledger, opened := s.opened.set n t })

def act (s : Sessions) : StoreCall → StoreReply × Sessions
  | .get id => (.record (Outcome.ofError (s.ledger.store.get id)), s)
  | .insert id balance =>
    let (answer, ledger) := s.ledger.onStore (·.insert id balance)
    (.record (Outcome.ofError answer), { s with ledger })
  | .conditionalUpdate id expected balance =>
    let ((answer, _), ledger) := s.ledger.run ((Optimistic.conditionalUpdate id expected balance).start ())
    (.record answer, { s with ledger })
  | .begin =>
    let (id, ledger) := s.ledger.onStore Store.allocate
    (.began s.opened.length, { ledger, opened := s.opened ++ [.start id] })
  | .read n id => s.within n .record (Session.read id)
  | .write n id expected balance => s.within n .record (Session.write id expected balance)
  | .lock n id timeout => s.within n .done (Session.lock id timeout)
  | .unlock n id noted => s.within n .done (Session.unlock id noted)
  | .release owner id => (.done (.ok ()), { s with ledger := s.ledger.onLocks (·.release owner id) })
  | .commit n => s.within n .done Session.commit
  | .abort n reason => s.within n .done (Session.abort reason)
  | .setFaults setting => (.done (.ok ()), { s with ledger := (s.ledger.answer (.setFaults setting)).2 })

def after (s : Sessions) (calls : List StoreCall) : Sessions := calls.foldl (fun s c => (s.act c).2) s

def log (s : Sessions) : List StoreCall → List Answered
  | [] => []
  | c :: calls => (c, (s.act c).1) :: (s.act c).2.log calls

variable {s : Sessions}

theorem after_append (s : Sessions) (calls more : List StoreCall) :
    s.after (calls ++ more) = (s.after calls).after more := List.foldl_append

theorem log_append (s : Sessions) (calls more : List StoreCall) :
    s.log (calls ++ more) = s.log calls ++ (s.after calls).log more := by
  induction calls generalizing s with
  | nil => rfl
  | cons c calls ih => exact congrArg ((c, (s.act c).1) :: ·) (ih (s.act c).2)

theorem staged_set {n : Nat} {t : Transaction} (present : s.opened[n]? = some t) (ledger : Ledger)
    (t' : Transaction) :
    (Sessions.mk ledger (s.opened.set n t')).staged =
      Function.update s.staged n (some (t'.status, t'.writes)) := by
  funext m
  have inside : n < s.opened.length := (List.getElem?_eq_some_iff.mp present).1
  unfold staged
  by_cases same : m = n
  · subst same
    simp [inside]
  · simp [same,List.getElem?_set_ne (Ne.symm same)]

theorem staged_concat (s : Sessions) (ledger : Ledger) (t : Transaction) :
    (Sessions.mk ledger (s.opened ++ [t])).staged =
      Function.update s.staged s.opened.length (some (t.status, t.writes)) := by
  funext m
  by_cases last : m = s.opened.length
  · rw [last,Function.update_self,staged,List.getElem?_concat_length,Option.map_some]
  · rw [Function.update_of_ne last,staged,staged]
    rcases Nat.lt_or_gt_of_ne last with before | beyond
    · rw [List.getElem?_append_left before]
    · have outside : (s.opened ++ [t]).length ≤ m := by
        rw [List.length_append]
        exact beyond
      rw [List.getElem?_eq_none outside,List.getElem?_eq_none (Nat.le_of_lt beyond)]

theorem within_cases {goal : Transaction → Outcome α → Transaction → Ledger → Prop} {p : Session α} (n : Nat)
    (reply : Outcome α → StoreReply) (obeys : ∀ t, p.Obeys Rule.alone (goal t) t s.ledger) :
    s.within n reply p = (.unknown, s) ∨ ∃ t answer t' ledger, s.opened[n]? = some t ∧ goal t answer t' ledger ∧
      s.within n reply p = (reply answer, { ledger, opened := s.opened.set n t' }) := by
  unfold within
  cases present : s.opened[n]? with
  | none => exact .inl rfl
  | some t =>
    exact .inr ⟨t,_,_,_,rfl,run_of_alone (obeys t),rfl⟩

end Sessions

namespace Transaction

def stageOver (t : Transaction) (seen : Record) (balance : Amount) : WriteSet :=
  let staged := (t.writes[seen.id]?).getD ⟨seen.version, balance, 0⟩
  t.writes.insert seen.id { staged with balance, writes := staged.writes + 1 }

theorem stage_ok {t t' : Transaction} {seen after : Record} {expected : Version} {balance : Amount}
    (staged : (.ok after, t') = t.stage seen expected balance) : t.status = .active ∧ seen.version = expected ∧
      seen.next balance = .ok after ∧ t' = { t with writes := t.stageOver seen balance } := by
  unfold stage at staged
  split at staged
  · cases staged
  · next active =>
    split at staged
    · cases staged
    · next current =>
      obtain ⟨next,rfl⟩ := Prod.mk.inj staged
      exact ⟨ensureActive_eq_ok.mp active,Decidable.not_not.mp current,next.symm,rfl⟩

theorem stage_error {t t' : Transaction} {seen : Record} {expected : Version} {balance : Amount} {f : Failure}
    (staged : (.error f, t') = t.stage seen expected balance) (room : seen.version + 1 < Version.limit) : t' = t := by
  unfold stage at staged
  split at staged
  · exact (Prod.mk.inj staged).2
  · split at staged
    · exact (Prod.mk.inj staged).2
    · exact absurd (Record.full_of_next (Prod.mk.inj staged).1.symm).2 (Nat.not_le.mpr room)

end Transaction

namespace Session

variable {s : Ledger} {t : Transaction} {id : RecordId}

/-- Requests for locks and their return leave records, status and staged writes as they are. -/
def Aside (s : Ledger) (t : Transaction) (_ : Outcome Unit) (after : Transaction) (left : Ledger) : Prop :=
  left.store.view = s.store.view ∧ after.status = t.status ∧ after.writes = t.writes

theorem alone_lock (s : Ledger) (t : Transaction) (id : RecordId) (timeout : Duration) :
    (lock id timeout).Obeys Rule.alone (Aside s t) t s := by
  simp only [lock,ensureActive,obeys_bind,obeys_get,obeys_ofError,obeys_perform,obeys_ofOutcome,obeys_modify]
  cases t.ensureActive with
  | error e => exact ⟨rfl,rfl,rfl⟩
  | ok _ =>
    obtain ⟨records,cases⟩ := s.acquire_cases t.id id (some timeout) true
    have view : (s.acquire t.id id (some timeout) true).2.store.view = s.store.view := by
      unfold Store.view
      rw [records]
    rcases cases with ⟨granted,_⟩ | ⟨⟨e,refused⟩,_⟩
    · exact Rule.alone_of_reply granted ⟨view,Transaction.status_noteAcquired,Transaction.writes_noteAcquired⟩
    · exact Rule.alone_of_reply refused ⟨view,rfl,rfl⟩

theorem alone_unlock (s : Ledger) (t : Transaction) (id : RecordId) (noted : Bool) :
    (unlock id noted).Obeys Rule.alone (Aside s t) t s := by
  simp only [unlock,obeys_bind,obeys_get,obeys_perform,obeys_ite,obeys_modify]
  unfold Rule.alone
  dsimp only
  split <;> exact ⟨rfl,rfl,rfl⟩

theorem alone_aborts (s : Ledger) (t : Transaction) (reason : String) :
    (abort reason).Obeys Rule.alone (fun answer after left => left.store.view = s.store.view ∧
      (t.status = .active ∧ after.status = .aborted reason ∧ after.writes = ∅ ∨
        t.status ≠ .active ∧ Aside s t answer after left)) t s := by
  by_cases active : t.status = .active
  · refine (alone_abort active reason s).mono Rule.alone_monotone fun answer after left ends => ?_
    obtain ⟨_,rfl,rfl⟩ := ends
    exact ⟨rfl,.inl ⟨active,rfl,rfl⟩⟩
  · have ended : ¬ t.isActive = true := mt Transaction.isActive_iff.mp active
    simp only [abort,releaseHeld,obeys_bind,obeys_get,obeys_ite,if_neg ended,obeys_perform,obeys_set]
    exact ⟨rfl,.inr ⟨active,rfl,rfl,rfl⟩⟩

end Session

theorem Ledger.view_answer {s : Ledger} {c : Call} (quiet : c.writes = false) :
    (s.answer c).2.store.view = s.store.view := by
  have records : (s.answer c).2.store.records = s.store.records := by
    cases c with
    | acquire owner id timeout existing => exact (s.acquire_cases owner id timeout existing).1
    | sleep => rfl
    | install | apply => cases quiet
    | _ => exact s.records_answer rfl rfl
  unfold Store.view
  rw [records]

theorem Rule.alone_keeps_view (V : View) :
    Rule.alone.Keeps (fun c => !c.writes) fun s => s.store.view = V := by
  intro c quiet promise s same replied
  have kept : (s.answer c).2.store.view = s.store.view := Ledger.view_answer (by simpa using quiet)
  exact replied _ _ (kept.trans same)

theorem Optimistic.alone_conditionalUpdate (s : Ledger) (id : RecordId) (expected : Version) (balance : Amount) :
    (conditionalUpdate id expected balance : Procedure Unit Record).Obeys Rule.alone (fun answer _ left =>
      (∃ after, answer = .ok after ∧ Installs s.store.view id expected balance after left.store.view) ∨
        (∃ f, answer = .error f) ∧ left.store.view = s.store.view) () s := by
  have keeps := Rule.alone_keeps_view s.store.view
  simp only [conditionalUpdate,obeys_bind,obeys_perform,obeys_ofError]
  refine keeps _ rfl _ s rfl fun checked s₁ same => ?_
  cases checked with
  | error e => exact .inr ⟨⟨_,rfl⟩,same⟩
  | ok _ =>
    refine keeps _ rfl _ s₁ same fun found s₂ same => ?_
    rw [obeys_ite]
    split
    · exact .inr ⟨⟨_,rfl⟩,same⟩
    · simp only [obeys_bind,obeys_perform,obeys_ofOutcome]
      refine keeps _ rfl _ s₂ same fun owner s₃ same => ?_
      refine keeps _ rfl _ s₃ same fun granted s₄ same => ?_
      cases granted with
      | error f => exact .inr ⟨⟨f,rfl⟩,same⟩
      | ok _ =>
        cases installed : (s₄.store.install id expected balance).1 with
        | error f =>
          have left := (Store.view_install_error installed).trans same
          refine Rule.alone_of_reply installed ?_
          exact keeps _ rfl _ _ left fun _ s₅ same => .inr ⟨⟨f,rfl⟩,same⟩
        | ok after =>
          have installs := Store.view_install_ok installed
          rw [show s₄.store.view = s.store.view from same] at installs
          refine Rule.alone_of_reply installed ?_
          exact Rule.alone_keeps_view _ _ rfl _ _ rfl fun _ s₅ left => .inl ⟨after,rfl,left ▸ installs⟩

namespace Sessions

open Answered

/-- Every version that is stored or staged can be raised. -/
def Roomy (s : Sessions) : Prop :=
  (∀ entry ∈ s.ledger.store.records.toList, entry.2.version + 1 < Version.limit) ∧
    ∀ t ∈ s.opened, ∀ entry ∈ t.writes.toList, entry.2.version + 1 < Version.limit

instance (s : Sessions) : Decidable s.Roomy := inferInstanceAs (Decidable (_ ∧ _))

variable {s : Sessions} {n : Nat} {t : Transaction} {id : RecordId} {seen : Record}

theorem Roomy.room (roomy : s.Roomy) (present : s.opened[n]? = some t) (reads : t.reads s.view id = .ok seen) :
    seen.version + 1 < Version.limit := by
  unfold Transaction.reads at reads
  split at reads
  · cases reads
  · cases reads
  · next stored _ here =>
    unfold Transaction.view at reads
    split at reads
    · next staged found =>
      unfold StagedWrite.version? Version.add? at reads
      split at reads
      · cases reads
        exact roomy.2 t (List.mem_of_getElem? present) (stored.id, staged)
          (Std.TreeMap.mem_toList_iff_getElem?_eq_some.mpr found)
      · cases reads
    · cases reads
      exact roomy.1 (id, seen) (Std.TreeMap.mem_toList_iff_getElem?_eq_some.mpr here)

inductive Touches (s : Sessions) : StoreCall → StoreReply → Sessions → Prop
  | still {c : StoreCall} {r : StoreReply} {s' : Sessions} (silent : Answered.Silent (c, r))
      (view : s'.view = s.view) (staged : s'.staged = s.staged) : Touches s c r s'
  | inserted {id : RecordId} {balance : Amount} {s' : Sessions} (absent : s.view id = none)
      (view : s'.view = s.view.set id (.fresh id balance)) (staged : s'.staged = s.staged) :
    Touches s (.insert id balance) (.record (.ok (.fresh id balance))) s'
  | updated {id : RecordId} {expected : Version} {balance : Amount} {after : Record} {s' : Sessions}
      (installs : Installs s.view id expected balance after s'.view) (staged : s'.staged = s.staged) :
    Touches s (.conditionalUpdate id expected balance) (.record (.ok after)) s'
  | began {s' : Sessions} (view : s'.view = s.view)
      (staged : s'.staged = Function.update s.staged s.opened.length (some (.active, ∅))) :
    Touches s .begin (.began s.opened.length) s'
  | wrote {n : Nat} {t : Transaction} {id : RecordId} {balance : Amount} {seen after : Record} {s' : Sessions}
      (present : s.opened[n]? = some t) (active : t.status = .active) (reads : t.reads s.view id = .ok seen)
      (next : seen.next balance = .ok after)
      (view : s'.view = s.view)
      (staged : s'.staged = Function.update s.staged n (some (.active, t.stageOver seen balance))) :
    Touches s (.write n id seen.version balance) (.record (.ok after)) s'
  | committed {n : Nat} {t : Transaction} {s' : Sessions} (present : s.opened[n]? = some t)
      (active : t.status = .active) (current : Current s.view t.writes) (view : s'.view = overlay s.view t.writes)
      (staged : s'.staged = Function.update s.staged n (some (.committed, t.writes))) :
    Touches s (.commit n) (.done (.ok ())) s'
  | aborted {c : StoreCall} {r : StoreReply} {n : Nat} {reason : String} {s' : Sessions}
      (silent : Answered.Silent (c, r)) (view : s'.view = s.view)
      (staged : s'.staged = Function.update s.staged n (some (.aborted reason, ∅))) :
    Touches s c r s'

private theorem staged_same {t' : Transaction} {ledger : Ledger} (present : s.opened[n]? = some t)
    (status : t'.status = t.status) (writes : t'.writes = t.writes) :
    (Sessions.mk ledger (s.opened.set n t')).staged = s.staged := by
  rw [staged_set present,status,writes]
  refine Function.update_eq_iff.mpr ⟨?_,fun _ _ => rfl⟩
  rw [staged,present]
  rfl

private theorem touches_aside {c : StoreCall} {p : Session Unit} (uncounted : c.counts = false)
    (aside : ∀ t, p.Obeys Rule.alone (Session.Aside s.ledger t) t s.ledger) :
    s.Touches c (s.within n .done p).1 (s.within n .done p).2 := by
  rcases within_cases n .done aside with unknown | ⟨t,answer,t',ledger,present,⟨view,status,writes⟩,acted⟩
  · rw [unknown]
    exact .still (silent_of_aside uncounted _) rfl rfl
  · rw [acted]
    exact .still (silent_of_aside uncounted _) view (staged_same present status writes)

private theorem staged_aborted {t' : Transaction} {ledger : Ledger} {reason : String}
    (present : s.opened[n]? = some t) (status : t'.status = .aborted reason) (writes : t'.writes = ∅) :
    (Sessions.mk ledger (s.opened.set n t')).staged =
      Function.update s.staged n (some (.aborted reason, ∅)) := by
  rw [staged_set present,status,writes]

private theorem touches_write (roomy : s.Roomy) (n : Nat) (id : RecordId) (expected : Version) (balance : Amount) :
    s.Touches (.write n id expected balance) (s.act (.write n id expected balance)).1
      (s.act (.write n id expected balance)).2 := by
  have acted := within_cases n .record fun t => Session.alone_stages s.ledger t id expected balance
  rcases acted with unknown | ⟨t,answer,t',ledger,present,⟨rfl,⟨f,_,rfl,rfl⟩ | ⟨seen,reads,staged⟩⟩,acted⟩
  · rw [act,unknown]
    exact .still (silent_of_fails _ rfl) rfl rfl
  · rw [act,acted]
    exact .still (silent_of_fails _ rfl) rfl (staged_same present rfl rfl)
  · rw [act,acted]
    cases answer with
    | error f =>
      obtain rfl := Transaction.stage_error staged (roomy.room present reads)
      exact .still (silent_of_fails _ rfl) rfl (staged_same present rfl rfl)
    | ok after =>
      obtain ⟨active,rfl,next,rfl⟩ := Transaction.stage_ok staged
      refine .wrote present active reads next rfl ?_
      rw [staged_set present,active]

private theorem touches_commit (s : Sessions) (n : Nat) :
    s.Touches (.commit n) (s.act (.commit n)).1 (s.act (.commit n)).2 := by
  rcases within_cases n .done (Session.alone_commits s.ledger) with
    unknown | ⟨t,answer,t',ledger,present,commits,acted⟩
  · rw [act,unknown]
    exact .still (silent_of_fails _ rfl) rfl rfl
  · rw [act,acted]
    cases answer with
    | ok _ =>
      obtain ⟨active,valid⟩ := commits.ok_iff.mp rfl
      have current : Current s.view t.writes := by
        rcases valid with nothing | ⟨_,current⟩
        · intro x staged found
          cases (Std.TreeMap.getElem?_of_isEmpty nothing).symm.trans found
        · exact current
      have writes : t'.writes = t.writes := by cases commits <;> rfl
      refine .committed present active current commits.view_of_ok ?_
      rw [staged_set present,commits.status_of_ok,writes]
    | error f =>
      have view := commits.view_of_error
      by_cases active : t.status = .active
      · obtain ⟨e,rfl,aborted⟩ := commits.exists_error
        obtain ⟨status,writes⟩ := aborted active
        exact .aborted (silent_of_fails _ rfl) view (staged_aborted present status writes)
      · have same : t'.status = t.status ∧ t'.writes = t.writes := by
          cases commits with
          | ended => exact ⟨rfl,rfl⟩
          | fault still | refused still => exact absurd still active
        exact .still (silent_of_fails _ rfl) view (staged_same present same.1 same.2)

private theorem touches_abort (s : Sessions) (n : Nat) (reason : String) :
    s.Touches (.abort n reason) (s.act (.abort n reason)).1 (s.act (.abort n reason)).2 := by
  have silent := silent_of_aside (c := .abort n reason) rfl
  rcases within_cases n .done fun t => Session.alone_aborts s.ledger t reason with
    unknown | ⟨t,answer,t',ledger,present,⟨view,⟨_,status,writes⟩ | ⟨_,_,status,writes⟩⟩,acted⟩
  · rw [act,unknown]
    exact .still (silent _) rfl rfl
  · rw [act,acted]
    exact .aborted (silent _) view (staged_aborted present status writes)
  · rw [act,acted]
    exact .still (silent _) view (staged_same present status writes)

private theorem touches_insert (s : Sessions) (id : RecordId) (balance : Amount) :
    s.Touches (.insert id balance) (s.act (.insert id balance)).1 (s.act (.insert id balance)).2 := by
  have silent := silent_of_aside (c := .insert id balance) rfl
  unfold act Ledger.onStore Store.insert
  dsimp only
  split
  · exact .still (silent _) rfl rfl
  · next absent =>
    have nothing : s.view id = none := by
      rw [Store.contains_eq] at absent
      exact Option.not_isSome_iff_eq_none.mp absent
    exact .inserted nothing (Store.view_insert s.ledger.store.records (.fresh id balance)) rfl

theorem touches_act (roomy : s.Roomy) (c : StoreCall) : s.Touches c (s.act c).1 (s.act c).2 := by
  cases c with
  | get id => exact .still (silent_of_aside rfl _) rfl rfl
  | insert id balance => exact touches_insert s id balance
  | conditionalUpdate id expected balance =>
    have ends := run_of_alone (Optimistic.alone_conditionalUpdate s.ledger id expected balance)
    rcases ends with ⟨after,answer,installs⟩ | ⟨⟨f,answer⟩,view⟩
    · rw [act]
      dsimp only
      rw [answer]
      exact .updated installs rfl
    · rw [act]
      dsimp only
      rw [answer]
      exact .still (silent_of_fails _ rfl) view rfl
  | begin => exact .began rfl (staged_concat s _ _)
  | read n id =>
    rcases within_cases n .record fun t => Session.alone_reads s.ledger t id with
      unknown | ⟨t,answer,t',ledger,present,⟨_,rfl,rfl⟩,acted⟩
    · rw [act,unknown]
      exact .still (silent_of_aside rfl _) rfl rfl
    · rw [act,acted]
      exact .still (silent_of_aside rfl _) rfl (staged_same present rfl rfl)
  | write n id expected balance => exact touches_write roomy n id expected balance
  | lock n id timeout => exact touches_aside rfl fun t => Session.alone_lock s.ledger t id timeout
  | unlock n id noted => exact touches_aside rfl fun t => Session.alone_unlock s.ledger t id noted
  | release owner id => exact .still (silent_of_aside rfl _) rfl rfl
  | commit n => exact touches_commit s n
  | abort n reason => exact touches_abort s n reason
  | setFaults setting => exact .still (silent_of_aside rfl _) rfl rfl

end Sessions

end VersionedLedger

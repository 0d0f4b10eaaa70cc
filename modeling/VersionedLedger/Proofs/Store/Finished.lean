import VersionedLedger.Proofs.Store.Effects

/-! Transactions that have come to an end, among any number of others. The lock table, the notes of the
transactions, their status and the counters of the store are moved by different calls in different orders; after
every call they agree, and a call on a transaction that has ended moves none of them. -/
namespace VersionedLedger

open Procedure View Transaction

def StoreCall.within? : StoreCall → Option Nat
  | .read n _ | .write n .. | .lock n .. | .unlock n .. | .commit n | .abort n _ => some n
  | _ => none

def StoreCall.asks : StoreCall → Bool
  | .read .. | .write .. | .lock .. | .commit _ => true
  | _ => false

def StoreReply.fails (r : StoreReply) (e : Error) : Prop :=
  r = .record (.error (.error e)) ∨ r = .done (.error (.error e))

namespace Transaction

variable {t : Transaction}

theorem ne_active_of_inactive {e : Error} (inactive : t.ensureActive = .error e) : t.status ≠ .active := by
  intro active
  rw [ensureActive_eq_ok.mpr active] at inactive
  cases inactive

theorem exists_inactive (ended : t.status ≠ .active) : ∃ e, t.ensureActive = .error e := by
  cases inactive : t.ensureActive with
  | ok _ => exact absurd (ensureActive_eq_ok.mp inactive) ended
  | error e => exact ⟨e,rfl⟩

end Transaction

/-- Nothing that anybody could see has changed. -/
structure Ledger.Unmoved (s left : Ledger) : Prop where
  records : left.store.records = s.store.records
  owners : ∀ x : RecordId, left.store.locks.table.owners[x]? = s.store.locks.table.owners[x]?
  waits : ∀ a : TxnId, left.store.locks.table.waitsFor[a]? = s.store.locks.table.waitsFor[a]?
  locks : left.store.locks.stats = s.store.locks.stats
  commits : left.store.commits = s.store.commits
  aborts : left.store.aborts = s.store.aborts
  conflicts : left.store.conflicts = s.store.conflicts

theorem Ledger.Unmoved.refl (s : Ledger) : s.Unmoved s := ⟨rfl,fun _ => rfl,fun _ => rfl,rfl,rfl,rfl,rfl⟩

theorem Ledger.unmoved_giveBack {s : Ledger} {t : Transaction} (empty : t.held = [])
    (unwaited : s.store.locks.Unwaited) : s.Unmoved (s.giveBack t) := by
  refine ⟨rfl,fun x => ?_,fun a => ?_,rfl,rfl,rfl,rfl⟩
  · change (s.store.locks.table.releaseAll t.id t.held).owners[x]? = _
    rw [LockTable.releaseAll_owners,empty]
    simp
  · rw [unwaited a]
    exact unwaited.releaseAll t.id t.held a

theorem Ledger.release_eq {s : Ledger} {owner : TxnId} {id : RecordId}
    (other : s.store.locks.table.owners[id]? ≠ some owner) : s.onLocks (·.release owner id) = s := by
  change { s with store := { s.store with locks := s.store.locks.release owner id } } = s
  rw [LockManager.release_eq other]

namespace Session

variable {s : Ledger} {t : Transaction} {e : Error}

theorem refuses_read (inactive : t.ensureActive = .error e) (s : Ledger) (id : RecordId) :
    (read id).Obeys Rule.alone
      (fun answer after left => answer = .error (.error e) ∧ after = t ∧ s.Unmoved left) t s := by
  refine (alone_reads s t id).mono Rule.alone_monotone fun answer after left same => ?_
  obtain ⟨found,rfl,rfl⟩ := same
  rw [reads,inactive] at found
  exact ⟨found,rfl,.refl left⟩

theorem refuses_write (inactive : t.ensureActive = .error e) (s : Ledger) (id : RecordId) (expected : Version)
    (balance : Amount) : (write id expected balance).Obeys Rule.alone
      (fun answer after left => answer = .error (.error e) ∧ after = t ∧ s.Unmoved left) t s := by
  unfold write
  rw [obeys_bind]
  refine (refuses_read inactive s id).mono Rule.alone_monotone fun answer after left refused => ?_
  obtain ⟨rfl,same⟩ := refused
  exact ⟨rfl,same⟩

theorem refuses_lock (inactive : t.ensureActive = .error e) (s : Ledger) (id : RecordId) (timeout : Duration) :
    (lock id timeout).Obeys Rule.alone
      (fun answer after left => answer = .error (.error e) ∧ after = t ∧ s.Unmoved left) t s := by
  simp only [lock,ensureActive,obeys_bind,obeys_get,obeys_ofError,inactive]
  exact ⟨rfl,trivial,.refl s⟩

theorem refuses_commit (inactive : t.ensureActive = .error e) (empty : t.held = [])
    (unwaited : s.store.locks.Unwaited) : commit.Obeys Rule.alone
      (fun answer after left => answer = .error (.error e) ∧ after = t ∧ s.Unmoved left) t s := by
  refine (alone_commits s t).mono Rule.alone_monotone fun answer after left commits => ?_
  have same : t.emptyHanded = t := by
    unfold emptyHanded
    rw [← empty]
  cases commits with
  | ended inactive' =>
    cases inactive.symm.trans inactive'
    exact ⟨rfl,same,Ledger.unmoved_giveBack empty unwaited⟩
  | readOnly active | fault active | refused active | applied active =>
    exact absurd active (ne_active_of_inactive inactive)

theorem leaves_abort (ended : t.status ≠ .active) (empty : t.held = []) (unwaited : s.store.locks.Unwaited)
    (reason : String) : (abort reason).Obeys Rule.alone
      (fun answer after left => answer = .ok () ∧ after = t ∧ s.Unmoved left) t s := by
  refine (alone_abort_ended ended reason s).mono Rule.alone_monotone fun answer after left ends => ?_
  obtain ⟨rfl,rfl,rfl⟩ := ends
  refine ⟨rfl,?_,Ledger.unmoved_giveBack empty unwaited⟩
  unfold emptyHanded
  rw [← empty]

theorem leaves_unlock (empty : t.held = []) {id : RecordId}
    (other : s.store.locks.table.owners[id]? ≠ some t.id) (noted : Bool) : (unlock id noted).Obeys Rule.alone
      (fun answer after left => answer = .ok () ∧ after = t ∧ s.Unmoved left) t s := by
  have same : t.noteReleased id = t := by
    unfold noteReleased
    rw [empty,List.filter_nil,← empty]
  simp only [unlock,obeys_bind,obeys_get,obeys_perform,obeys_ite,obeys_modify]
  unfold Rule.alone
  change if noted = true then _ ∧ _ ∧ s.Unmoved (s.onLocks (·.release t.id id)) else
    _ ∧ _ ∧ s.Unmoved (s.onLocks (·.release t.id id))
  rw [Ledger.release_eq other]
  split
  · exact ⟨trivial,same,.refl s⟩
  · exact ⟨rfl,rfl,.refl s⟩

end Session

namespace Sessions

variable {s s' : Sessions} {n : Nat} {t : Transaction}

def ids (s : Sessions) : List TxnId := s.opened.map Transaction.id

def status? (s : Sessions) (n : Nat) : Option TransactionStatus := s.opened[n]?.map Transaction.status

def turns (s : Sessions) (n : Nat) : List StoreCall → Nat
  | [] => 0
  | c :: calls =>
    (if (s.status? n).isSome ∧ (s.act c).2.status? n ≠ s.status? n then 1 else 0) + (s.act c).2.turns n calls

/-- A call begins a transaction, is made in one, gives back a lock, or leaves locks and counters alone. -/
inductive Runs (s : Sessions) (c : StoreCall) : Sessions → Prop
  | rests {ledger : Ledger} (rests : s.ledger.Rests ledger) : Runs s c { s with ledger }
  | began {ledger : Ledger} (rests : s.ledger.Rests ledger)
      (next : ledger.store.nextTxn = s.ledger.store.nextTxn + 1) :
    Runs s c { ledger, opened := s.opened ++ [.start s.ledger.store.nextTxn] }
  | released (owner : TxnId) (id : RecordId) :
    Runs s c { s with ledger := s.ledger.onLocks (·.release owner id) }
  | called {n : Nat} {t after : Transaction} {left : Ledger} (within : c.within? = some n)
      (present : s.opened[n]? = some t) (behaves : t.Behaves s.ledger after left) :
    Runs s c { ledger := left, opened := s.opened.set n after }

theorem rests_same (s : Sessions) (c : StoreCall) : s.Runs c s :=
  .rests ⟨fun _ => rfl,fun none => none,rfl,Nat.le_refl _⟩

theorem runs_within {α : Type} {c : StoreCall} {p : Session α} (n : Nat) (reply : Outcome α → StoreReply)
    (within : c.within? = some n)
    (behaves : ∀ t, p.Obeys Rule.alone (fun _ after left => t.Behaves s.ledger after left) t s.ledger) :
    s.Runs c (s.within n reply p).2 := by
  rcases within_cases n reply behaves with unknown | ⟨t,_,after,left,present,behaves,acted⟩
  · rw [unknown]
    exact s.rests_same c
  · rw [acted]
    exact .called within present behaves

/-- Every transaction has an identity of its own, the locks belong to them, and the counters tell of those that
have ended. -/
structure Kept (s : Sessions) : Prop where
  fresh : ∀ a ∈ s.ids, a < s.ledger.store.nextTxn
  distinct : s.ids.Nodup
  owned : ∀ (x : RecordId) (a : TxnId), s.ledger.store.locks.table.owners[x]? = some a → a ∈ s.ids
  sound : ∀ t ∈ s.opened, t.Sound s.ledger
  unwaited : s.ledger.store.locks.Unwaited
  counted : s.ledger.counted = s.opened.countP Transaction.isCounted

theorem runs_act (kept : s.Kept) (c : StoreCall) : s.Runs c (s.act c).2 := by
  cases c with
  | get id => exact s.rests_same _
  | insert id balance =>
    have rests : s.ledger.Rests (s.ledger.onStore (·.insert id balance)).2 := by
      unfold Ledger.onStore Store.insert
      dsimp only
      split <;> exact Ledger.rests_of_store rfl rfl (Nat.le_refl _)
    exact .rests rests
  | conditionalUpdate id expected balance =>
    have unknown : ∀ x : RecordId,
        s.ledger.store.locks.table.owners[x]? ≠ some s.ledger.store.nextTxn := fun x owned =>
      Nat.lt_irrefl _ (kept.fresh _ (kept.owned x _ owned))
    exact .rests (run_of_alone (Optimistic.alone_rests s.ledger unknown id expected balance))
  | begin => exact .began ⟨fun _ => rfl,fun none => none,rfl,Nat.le_succ _⟩ rfl
  | read n id => exact runs_within n _ rfl fun t => Session.behaves_read s.ledger t id
  | write n id expected balance =>
    exact runs_within n _ rfl fun t => Session.behaves_write s.ledger t id expected balance
  | lock n id timeout => exact runs_within n _ rfl fun t => Session.behaves_lock s.ledger t id timeout
  | unlock n id noted => exact runs_within n _ rfl fun t => Session.behaves_unlock s.ledger t id noted
  | release owner id => exact .released owner id
  | commit n => exact runs_within n _ rfl fun t => Session.behaves_commit s.ledger t
  | abort n reason => exact runs_within n _ rfl fun t => Session.behaves_abort s.ledger t reason
  | setFaults setting => exact .rests (Ledger.rests_of_store rfl rfl (Nat.le_refl _))

theorem ids_set {after : Transaction} (present : s.opened[n]? = some t) (named : after.id = t.id)
    (left : Ledger) : (Sessions.mk left (s.opened.set n after)).ids = s.ids := by
  unfold ids
  refine List.ext_getElem? fun m => ?_
  rw [List.getElem?_map,List.getElem?_map]
  by_cases same : n = m
  · subst same
    rw [List.getElem?_set_self (List.getElem?_eq_some_iff.mp present).1,present]
    exact congrArg some named
  · rw [List.getElem?_set_ne same]

theorem Kept.ne_of_index (kept : s.Kept) {m : Nat} {other : Transaction} (present : s.opened[n]? = some t)
    (there : s.opened[m]? = some other) (differ : n ≠ m) : other.id ≠ t.id := by
  intro same
  have inside : n < s.ids.length := by
    rw [ids,List.length_map]
    exact (List.getElem?_eq_some_iff.mp present).1
  refine differ ((List.getElem?_inj inside kept.distinct).mp ?_)
  simp [ids,present,there,same]

theorem Kept.sound_set (kept : s.Kept) {after : Transaction} {left : Ledger} (present : s.opened[n]? = some t)
    (behaves : t.Behaves s.ledger after left) : ∀ other ∈ s.opened.set n after, other.Sound left := by
  intro other member
  obtain ⟨m,there⟩ := List.mem_iff_getElem?.mp member
  by_cases same : n = m
  · subst same
    rw [List.getElem?_set_self (List.getElem?_eq_some_iff.mp present).1] at there
    cases there
    exact behaves.sound (kept.sound t (List.mem_of_getElem? present))
  · rw [List.getElem?_set_ne same] at there
    have sound := kept.sound other (List.mem_of_getElem? there)
    have differ := kept.ne_of_index present there same
    exact ⟨fun x owned => sound.noted x ((behaves.others x _ differ).mp owned),sound.emptied⟩

theorem countP_set (present : s.opened[n]? = some t) (after : Transaction) :
    (s.opened.set n after).countP Transaction.isCounted + t.isCounted.toNat =
      s.opened.countP Transaction.isCounted + after.isCounted.toNat := by
  obtain ⟨inside,here⟩ := List.getElem?_eq_some_iff.mp present
  have before := List.boole_getElem_le_countP (p := Transaction.isCounted) inside
  rw [List.countP_set inside,here]
  rw [here] at before
  revert before
  cases t.isCounted <;> cases after.isCounted <;>
    simp only [Bool.toNat_true,Bool.toNat_false,↓reduceIte,Bool.false_eq_true] <;> omega

theorem Kept.begin (kept : s.Kept) {ledger : Ledger} (rests : s.ledger.Rests ledger)
    (next : ledger.store.nextTxn = s.ledger.store.nextTxn + 1) :
    (Sessions.mk ledger (s.opened ++ [.start s.ledger.store.nextTxn])).Kept := by
  have named : (Sessions.mk ledger (s.opened ++ [.start s.ledger.store.nextTxn])).ids =
      s.ids ++ [s.ledger.store.nextTxn] := List.map_append
  have unknown : s.ledger.store.nextTxn ∉ s.ids := fun member => Nat.lt_irrefl _ (kept.fresh _ member)
  refine ⟨fun a member => ?_,?_,fun x a owned => ?_,fun t member => ?_,rests.unwaited kept.unwaited,?_⟩
  · change a < ledger.store.nextTxn
    rw [next]
    rw [named] at member
    rcases List.mem_append.mp member with old | new
    · exact Nat.lt_succ_of_lt (kept.fresh a old)
    · exact List.mem_singleton.mp new ▸ Nat.lt_succ_self _
  · rw [named]
    exact List.concat_eq_append ▸ kept.distinct.concat unknown
  · rw [named]
    exact List.mem_append_left _ (kept.owned x a (by rwa [rests.owners] at owned))
  · rcases List.mem_append.mp member with old | new
    · exact (kept.sound t old).of_rests rests
    · obtain rfl := List.mem_singleton.mp new
      refine ⟨fun x owned => ?_,fun ended => absurd rfl ended⟩
      rw [rests.owners] at owned
      exact absurd (kept.owned x _ owned) unknown
  · rw [rests.counted,kept.counted,List.countP_append]
    rfl

theorem Kept.act (kept : s.Kept) (c : StoreCall) : (s.act c).2.Kept := by
  have runs := runs_act kept c
  generalize (s.act c).2 = s' at runs
  cases runs with
  | rests rests =>
    refine ⟨fun a member => Nat.lt_of_lt_of_le (kept.fresh a member) rests.next,kept.distinct,
      fun x a owned => kept.owned x a (by rwa [rests.owners] at owned),
      fun t member => (kept.sound t member).of_rests rests,rests.unwaited kept.unwaited,?_⟩
    exact rests.counted.trans kept.counted
  | began rests next => exact kept.begin rests next
  | released owner id =>
    have fewer {x : RecordId} {a : TxnId}
        (owned : (s.ledger.store.locks.table.release owner id).owners[x]? = some a) :
        s.ledger.store.locks.table.owners[x]? = some a := by
      rw [LockTable.release_owners] at owned
      split at owned
      · cases owned
      · exact owned
    exact ⟨kept.fresh,kept.distinct,fun x a owned => kept.owned x a (fewer owned),
      fun t member => ⟨fun x owned => (kept.sound t member).noted x (fewer owned),(kept.sound t member).emptied⟩,
      kept.unwaited.release owner id,kept.counted⟩
  | @called n t after left within present behaves =>
    have named := ids_set present behaves.named left
    refine ⟨?_,?_,fun x a owned => ?_,kept.sound_set present behaves,behaves.unwaited kept.unwaited,?_⟩
    · rw [named]
      exact behaves.next ▸ kept.fresh
    · rw [named]
      exact kept.distinct
    · rw [named]
      by_cases own : a = t.id
      · rw [own]
        exact List.mem_map_of_mem (List.mem_of_getElem? present)
      · exact kept.owned x a ((behaves.others x a own).mp owned)
    · have moved := behaves.counted
      have set := countP_set present after
      rw [kept.counted] at moved
      dsimp only
      omega

theorem Kept.after (kept : s.Kept) (calls : List StoreCall) : (s.after calls).Kept := by
  induction calls generalizing s with
  | nil => exact kept
  | cons c calls ih => exact ih (kept.act c)

theorem kept_start (ledger : Ledger) (records : Std.TreeMap RecordId Record) (timeout : Duration) :
    ({ ledger := { ledger with store := { records, autocommitTimeout := timeout } } } : Sessions).Kept := by
  refine ⟨fun a member => ?_,.nil,fun x a owned => ?_,fun t member => ?_,fun a => ?_,rfl⟩
  · cases member
  · exact absurd owned (by simp)
  · cases member
  · simp

theorem Kept.owner (kept : s.Kept) {x : RecordId} {a : TxnId}
    (owned : s.ledger.store.locks.table.owners[x]? = some a) :
    ∃ t ∈ s.opened, t.id = a ∧ t.status = .active ∧ x ∈ t.held := by
  obtain ⟨t,member,rfl⟩ := List.mem_map.mp (kept.owned x a owned)
  exact ⟨t,member,rfl,(kept.sound t member).active_of_owned owned⟩

theorem exists_status_act (kept : s.Kept) (c : StoreCall) {status : TransactionStatus}
    (here : s.status? n = some status) :
    ∃ status', (s.act c).2.status? n = some status' ∧ (status ≠ .active → status' = status) := by
  have runs := runs_act kept c
  generalize (s.act c).2 = s' at runs
  obtain ⟨t,present,rfl⟩ := Option.map_eq_some_iff.mp here
  have inside : n < s.opened.length := (List.getElem?_eq_some_iff.mp present).1
  cases runs with
  | rests | released => exact ⟨_,here,fun _ => rfl⟩
  | began =>
    refine ⟨_,?_,fun _ => rfl⟩
    rw [status?,List.getElem?_append_left inside]
    exact here
  | @called m t' after left within present' behaves =>
    unfold status?
    by_cases same : m = n
    · subst same
      cases present.symm.trans present'
      rw [List.getElem?_set_self inside]
      exact ⟨_,rfl,behaves.settled⟩
    · rw [List.getElem?_set_ne same]
      exact ⟨_,here,fun _ => rfl⟩

theorem status_of_ended (kept : s.Kept) (c : StoreCall) {status : TransactionStatus}
    (here : s.status? n = some status) (ended : status ≠ .active) : (s.act c).2.status? n = some status := by
  obtain ⟨status',there,same⟩ := exists_status_act kept c here
  rw [there,same ended]

theorem turns_of_ended (kept : s.Kept) (calls : List StoreCall) {status : TransactionStatus}
    (here : s.status? n = some status) (ended : status ≠ .active) : s.turns n calls = 0 := by
  induction calls generalizing s with
  | nil => rfl
  | cons c calls ih =>
    have same := status_of_ended kept c here ended
    rw [turns,ih (kept.act c) same,here,same]
    simp

theorem turns_le_one (kept : s.Kept) (n : Nat) (calls : List StoreCall) : s.turns n calls ≤ 1 := by
  induction calls generalizing s with
  | nil => exact Nat.zero_le _
  | cons c calls ih =>
    rw [turns]
    split
    · next changes =>
      obtain ⟨begun,differs⟩ := changes
      obtain ⟨status,here⟩ := Option.isSome_iff_exists.mp begun
      obtain ⟨status',there,settled⟩ := exists_status_act kept c here
      rw [here,there] at differs
      have ends : status' ≠ .active := by
        rintro rfl
        by_cases active : status = .active
        · exact differs (congrArg some active.symm)
        · exact differs (congrArg some (settled active))
      rw [turns_of_ended (kept.act c) calls there ends]
    · rw [Nat.zero_add]
      exact ih (kept.act c)

theorem status_of_commits {c : StoreCall} (commits : Answered.commits? (c, (s.act c).1) = some n) :
    s.status? n = some .active ∧ (s.act c).2.status? n = some .committed := by
  cases c with
  | commit m =>
    rcases within_cases m .done (Session.alone_commits s.ledger) with
      unknown | ⟨t,answer,after,left,present,ends,acted⟩
    · rw [act,unknown] at commits
      cases commits
    · rw [act,acted] at commits ⊢
      cases answer with
      | error f => cases commits
      | ok _ =>
        obtain rfl : m = n := Option.some.inj commits
        have inside : m < s.opened.length := (List.getElem?_eq_some_iff.mp present).1
        refine ⟨?_,?_⟩
        · rw [status?,present]
          exact congrArg some (ends.ok_iff.mp rfl).1
        · rw [status?,List.getElem?_set_self inside]
          exact congrArg some ends.status_of_ok
  | _ => cases commits

theorem commits_le_turns (s : Sessions) (n : Nat) (calls : List StoreCall) :
    (s.log calls).countP (fun m => m.commits? = some n) ≤ s.turns n calls := by
  induction calls generalizing s with
  | nil => exact Nat.le_refl _
  | cons c calls ih =>
    rw [log,List.countP_cons,turns,Nat.add_comm]
    refine Nat.add_le_add ?_ (ih (s.act c).2)
    split
    · next commits =>
      obtain ⟨before,after⟩ := status_of_commits (of_decide_eq_true commits)
      rw [before,after]
      simp
    · exact Nat.zero_le _

theorem within_of_present {α : Type} {goal : Outcome α → Transaction → Ledger → Prop} {p : Session α}
    (reply : Outcome α → StoreReply) (present : s.opened[n]? = some t)
    (obeys : p.Obeys Rule.alone goal t s.ledger) : ∃ answer after left, goal answer after left ∧
      s.within n reply p = (reply answer, { ledger := left, opened := s.opened.set n after }) := by
  unfold within
  rw [present]
  exact ⟨_,_,_,run_of_alone obeys,rfl⟩

theorem view_act {c : StoreCall} (within : c.within? = some n) (present : s.opened[n]? = some t) :
    (s.act c).2.view =
      if Answered.commits? (c, (s.act c).1) = some n then overlay s.view t.writes else s.view := by
  have quiet {α : Type} {p : Session α} {reply : Outcome α → StoreReply}
      (obeys : p.Obeys Rule.alone (fun _ _ left => left.store.view = s.view) t s.ledger) :
      (s.within n reply p).2.view = s.view := by
    obtain ⟨_,_,_,same,acted⟩ := within_of_present reply present obeys
    rw [acted]
    exact same
  cases c with
  | get | insert | conditionalUpdate | begin | release | setFaults => cases within
  | read m id =>
    obtain rfl : m = n := Option.some.inj within
    refine quiet ((Session.alone_reads s.ledger t id).mono Rule.alone_monotone fun answer after left same => ?_)
    rw [same.2.2]
  | write m id expected balance =>
    obtain rfl : m = n := Option.some.inj within
    refine quiet ((Session.alone_stages s.ledger t id expected balance).mono Rule.alone_monotone
      fun answer after left same => ?_)
    rw [same.1]
  | lock m id timeout =>
    obtain rfl : m = n := Option.some.inj within
    exact quiet ((Session.alone_lock s.ledger t id timeout).mono Rule.alone_monotone
      fun answer after left aside => aside.1)
  | unlock m id noted =>
    obtain rfl : m = n := Option.some.inj within
    exact quiet ((Session.alone_unlock s.ledger t id noted).mono Rule.alone_monotone
      fun answer after left aside => aside.1)
  | abort m reason =>
    obtain rfl : m = n := Option.some.inj within
    exact quiet ((Session.alone_aborts s.ledger t reason).mono Rule.alone_monotone
      fun answer after left aside => aside.1)
  | commit m =>
    obtain rfl : m = n := Option.some.inj within
    obtain ⟨answer,after,left,commits,acted⟩ :=
      within_of_present .done present (Session.alone_commits s.ledger t)
    change (s.within m .done Session.commit).2.view =
      if Answered.commits? (.commit m, (s.within m .done Session.commit).1) = some m then _ else _
    rw [acted]
    cases answer with
    | error f => exact commits.view_of_error
    | ok _ => exact commits.view_of_ok.trans (if_pos rfl).symm

theorem ended_within {α : Type} {answer : Outcome α} {p : Session α} (reply : Outcome α → StoreReply)
    (present : s.opened[n]? = some t) (obeys : p.Obeys Rule.alone
      (fun answer' after left => answer' = answer ∧ after = t ∧ s.ledger.Unmoved left) t s.ledger) :
    (s.within n reply p).1 = reply answer ∧ (s.within n reply p).2.opened = s.opened ∧
      s.ledger.Unmoved (s.within n reply p).2.ledger := by
  obtain ⟨_,after,left,⟨rfl,rfl,unmoved⟩,acted⟩ := within_of_present reply present obeys
  obtain ⟨inside,here⟩ := List.getElem?_eq_some_iff.mp present
  rw [acted]
  refine ⟨rfl,?_,unmoved⟩
  rw [← here]
  exact List.set_getElem_self inside

theorem Kept.emptied (kept : s.Kept) (present : s.opened[n]? = some t) (ended : t.status ≠ .active) :
    t.held = [] ∧ ∀ x : RecordId, s.ledger.store.locks.table.owners[x]? ≠ some t.id := by
  have sound := kept.sound t (List.mem_of_getElem? present)
  exact ⟨sound.emptied ended,fun x owned => ended (sound.active_of_owned owned).1⟩

theorem act_of_ended (kept : s.Kept) (present : s.opened[n]? = some t) {e : Error}
    (inactive : t.ensureActive = .error e) {c : StoreCall} (within : c.within? = some n) :
    (c.asks = true → (s.act c).1.fails e) ∧
      (s.act c).2.opened = s.opened ∧ s.ledger.Unmoved (s.act c).2.ledger := by
  have ended := ne_active_of_inactive inactive
  obtain ⟨empty,free⟩ := kept.emptied present ended
  cases c with
  | get | insert | conditionalUpdate | begin | release | setFaults => cases within
  | read m id =>
    obtain rfl : m = n := Option.some.inj within
    obtain ⟨replied,unmoved⟩ := ended_within .record present (Session.refuses_read inactive s.ledger id)
    exact ⟨fun _ => .inl replied,unmoved⟩
  | write m id expected balance =>
    obtain rfl : m = n := Option.some.inj within
    obtain ⟨replied,unmoved⟩ :=
      ended_within .record present (Session.refuses_write inactive s.ledger id expected balance)
    exact ⟨fun _ => .inl replied,unmoved⟩
  | lock m id timeout =>
    obtain rfl : m = n := Option.some.inj within
    obtain ⟨replied,unmoved⟩ := ended_within .done present (Session.refuses_lock inactive s.ledger id timeout)
    exact ⟨fun _ => .inr replied,unmoved⟩
  | commit m =>
    obtain rfl : m = n := Option.some.inj within
    obtain ⟨replied,unmoved⟩ := ended_within .done present (Session.refuses_commit inactive empty kept.unwaited)
    exact ⟨fun _ => .inr replied,unmoved⟩
  | unlock m id noted =>
    obtain rfl : m = n := Option.some.inj within
    exact ⟨Bool.noConfusion,(ended_within .done present (Session.leaves_unlock empty (free id) noted)).2⟩
  | abort m reason =>
    obtain rfl : m = n := Option.some.inj within
    exact ⟨Bool.noConfusion,
      (ended_within .done present (Session.leaves_abort ended empty kept.unwaited reason)).2⟩

theorem release_of_ended (kept : s.Kept) (present : s.opened[n]? = some t) (ended : t.status ≠ .active)
    (id : RecordId) : (s.act (.release t.id id)).2 = s := by
  change { s with ledger := s.ledger.onLocks (·.release t.id id) } = s
  rw [Ledger.release_eq ((kept.emptied present ended).2 id)]

/-- Whatever has been called, and however often: a lock that is held belongs to an active transaction that has
noted it; a transaction changes its status once at most and is committed once at most, and its calls write no
record but then; once it has ended, requests are refused and nothing moves; and the counters tell how many have
ended, but for those that committed nothing. -/
theorem calls_settle (ledger : Ledger) (balances : List (RecordId × Amount)) (timeout : Duration)
    (calls : List StoreCall) :
    let start : Sessions :=
      { ledger := { ledger with store := { Store.seeded balances with autocommitTimeout := timeout } } }
    let s := start.after calls
    (∀ (x : RecordId) (a : TxnId), s.ledger.store.locks.table.owners[x]? = some a →
      ∃ t ∈ s.opened, t.id = a ∧ t.status = .active ∧ x ∈ t.held) ∧
    (∀ n, start.turns n calls ≤ 1 ∧ (start.log calls).countP (fun m => m.commits? = some n) ≤ 1) ∧
    (∀ n t c, s.opened[n]? = some t → c.within? = some n →
      (s.act c).2.view =
        if Answered.commits? (c, (s.act c).1) = some n then overlay s.view t.writes else s.view) ∧
    (∀ n t, s.opened[n]? = some t → t.status ≠ .active →
      (∀ c, c.within? = some n → (s.act c).2.opened = s.opened ∧ s.ledger.Unmoved (s.act c).2.ledger ∧
        (c.asks = true → ∃ e, t.ensureActive = .error e ∧ (s.act c).1.fails e)) ∧
      ∀ id, (s.act (.release t.id id)).2 = s) ∧
    s.ledger.store.commits + s.ledger.store.aborts = s.opened.countP Transaction.isCounted := by
  intro start s
  have first : start.Kept := kept_start ledger _ timeout
  have kept : s.Kept := first.after calls
  refine ⟨fun x a owned => kept.owner owned,fun n => ?_,fun n t c present within => view_act within present,
    fun n t present ended => ⟨fun c within => ?_,release_of_ended kept present ended⟩,kept.counted⟩
  · have turns := turns_le_one first n calls
    exact ⟨turns,Nat.le_trans (start.commits_le_turns n calls) turns⟩
  · obtain ⟨e,inactive⟩ := exists_inactive ended
    obtain ⟨refused,same,unmoved⟩ := act_of_ended kept present inactive within
    exact ⟨same,unmoved,fun asks => ⟨e,inactive,refused asks⟩⟩

/-- A second commit and a late abort of one transaction, and a commit of nothing in another. -/
example : (({ ledger := { store := .seeded [(1, 50)] } } : Sessions).after
    [.begin,.lock 0 1 1000,.write 0 1 0 30,.release 1 1,.commit 0,.commit 0,.abort 0 "late",.begin,.commit 1]
    ).opened.countP Transaction.isCounted = 1 := by decide +kernel

end Sessions

end VersionedLedger

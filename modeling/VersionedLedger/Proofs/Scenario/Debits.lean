import Mathlib.Algebra.BigOperators.Group.Finset.Piecewise
import VersionedLedger.Scenario.Contention
import VersionedLedger.Proofs.Pool.Pact
import VersionedLedger.Proofs.Serial.Promise

/-! Debits of one amount from one record, made side by side. The record is at every moment as it was at first with the
amount taken off some number of times, and its version tells how many; so a debit that finds the version it has read
takes the amount off once more. The workers know of their own debits only, and the record tells their number. -/
namespace VersionedLedger

open Procedure View

variable {σ α : Type}

/-- The amount has been taken off a number of times, and nothing else has been done. -/
structure Record.Debited (r : Record) (amount : Amount) (n : Nat) (r' : Record) : Prop where
  named : r'.id = r.id
  version : r'.version = r.version + n
  balance : r'.balance.toInt = r.balance.toInt - amount.toInt * n
  covered : n = 0 ∨ 0 < amount.toInt ∧ 0 ≤ r'.balance.toInt

/-- A write at this version leaves a record that has been debited once more. -/
def Record.Lands (r : Record) (amount : Amount) (expected : Version) (after : Record) : Prop :=
  ∀ n r', r.Debited amount n r' → r'.version = expected → r.Debited amount (n + 1) after

namespace Record

variable {r r' r'' : Record} {amount balance : Amount} {n k : Nat}

theorem debited_zero (r : Record) (amount : Amount) : r.Debited amount 0 r := by
  refine ⟨rfl,rfl,?_,.inl rfl⟩
  simp

theorem Debited.unique (first : r.Debited amount n r') (second : r.Debited amount k r'')
    (same : r'.version = r''.version) : r' = r'' := by
  have times : n = k := by
    rw [first.version,second.version] at same
    exact Nat.add_left_cancel same
  subst times
  have balance : r'.balance = r''.balance := Int64.toInt_inj.mp (first.balance.trans second.balance.symm)
  obtain ⟨id,_,_⟩ := r'
  obtain ⟨id',_,_⟩ := r''
  cases first.named.trans second.named.symm
  cases same
  cases balance
  rfl

theorem Debited.next (debited : r.Debited amount n r') (going : Account.debit r'.balance amount = .ok balance) :
    r.Debited amount (n + 1) ⟨r.id, balance, r'.version + 1⟩ := by
  obtain ⟨positive,covered,difference⟩ := Account.toInt_of_debit going
  refine ⟨rfl,congrArg (· + 1) debited.version,?_,.inr ⟨positive,?_⟩⟩
  · have once_more : amount.toInt * (n + 1 : Nat) = amount.toInt * n + amount.toInt := by
      rw [Int.natCast_add_one,Int.mul_add,Int.mul_one]
    rw [difference,debited.balance,once_more]
    omega
  · change 0 ≤ balance.toInt
    omega

theorem Debited.lands (debited : r.Debited amount n r') (going : Account.debit r'.balance amount = .ok balance) :
    r.Lands amount r'.version ⟨r.id, balance, r'.version + 1⟩ := by
  intro k r'' other same
  cases other.unique debited same
  exact other.next going

theorem Debited.le (debited : r.Debited amount n r') : n = 0 ∨ 0 < amount.toInt ∧ amount.toInt * n ≤ r.balance.toInt := by
  refine debited.covered.imp_right fun ⟨positive,left⟩ => ⟨positive,?_⟩
  rw [debited.balance] at left
  omega

end Record

namespace Call

def spares (id : RecordId) : Call → Bool
  | install x _ _ => x ≠ id
  | apply writes => !writes.contains id
  | _ => true

end Call

def Program.Spares (q : Program α) (id : RecordId) : Prop := q.Obeys (Rule.only (Call.spares id)) (fun _ _ => True) ()

theorem Ledger.view_of_spares (s : Ledger) {c : Call} {id : RecordId} (prompt : c.waits = false)
    (spares : c.spares id = true) : (s.answer c).2.store.view id = s.store.view id := by
  have silent (quiet : c.writes = false) : (s.answer c).2.store.view id = s.store.view id := by
    unfold Store.view
    rw [s.records_answer prompt quiet]
  cases c with
  | install x expected balance =>
    have other : id ≠ x := Ne.symm (of_decide_eq_true spares)
    change (s.store.install x expected balance).2.view id = _
    cases going : (s.store.install x expected balance).1 with
    | ok after =>
      obtain ⟨r,_,_,_,written⟩ := Store.view_install_ok going
      rw [written,set_other other]
    | error e => rw [Store.view_install_error going]
  | apply writes =>
    have unstaged : writes[id]? = none := by
      rw [Call.spares,Bool.not_eq_true',Std.TreeMap.contains_eq_isSome_getElem?] at spares
      exact Option.isSome_eq_false_iff.mp spares |> Option.isNone_iff_eq_none.mp
    change (s.store.apply writes).2.view id = _
    cases going : (s.store.apply writes).1 with
    | ok _ => rw [(Store.view_apply_ok going).2,overlay,unstaged]
    | error e => rw [Store.view_apply_error going]
  | _ => exact silent rfl

/-- What is known is the number of debits that this worker has made. It may find the record debited any number of
times, and writes only where that lands. -/
def Rule.debits (r : Record) (amount : Amount) : Rule Nat
  | .lookup id, promise, n => ∀ answer : Option Record,
      (id = r.id → ∃ k r', r.Debited amount k r' ∧ answer = some r') → promise answer n
  | .install id expected balance, promise, n =>
      id = r.id ∧ r.Lands amount expected ⟨r.id, balance, expected + 1⟩ ∧
        (∀ after, promise (.ok after) (n + 1)) ∧ ∀ e, promise (.error e) n
  | .apply writes, promise, n => ∃ staged, writes[r.id]? = some staged ∧
      r.Lands amount staged.base ⟨r.id, staged.balance, staged.version⟩ ∧
        promise (.ok ()) (n + 1) ∧ ∀ e, promise (.error e) n
  | _, promise, n => ∀ answer, promise answer n

def Rule.sparing (id : RecordId) : Rule Nat := fun c promise n => c.spares id = true ∧ ∀ answer, promise answer n

variable {r : Record} {amount : Amount}

theorem Rule.debits_monotone : (Rule.debits r amount).Monotone := by
  intro c strong weak n implies obeys
  cases c with
  | lookup id => exact fun answer found => implies _ _ (obeys answer found)
  | install id expected balance =>
    obtain ⟨own,lands,goes,fails⟩ := obeys
    exact ⟨own,lands,fun after => implies _ _ (goes after),fun e => implies _ _ (fails e)⟩
  | apply writes =>
    obtain ⟨staged,here,lands,goes,fails⟩ := obeys
    exact ⟨staged,here,lands,implies _ _ goes,fun e => implies _ _ (fails e)⟩
  | _ => exact fun answer => implies _ _ (obeys answer)

theorem Rule.debits_keeps (known : Nat → Prop) : (Rule.debits r amount).Keeps (fun c => !c.writes) known := by
  intro c quiet promise n start replied
  cases c with
  | install | apply => cases quiet
  | lookup id => exact fun answer _ => replied answer n start
  | _ => exact fun answer => replied answer n start

variable {id : RecordId}

theorem Rule.debits_gives {p : Procedure σ α} {s : σ} {n : Nat} {answer : Outcome α} {goal : Outcome α → σ → Nat → Prop}
    (gives : p.Obeys (Rule.only Call.yields) (fun given _ _ => given = answer) s ()) (ends : ∀ s, goal answer s n) :
    p.Obeys (Rule.debits r amount) goal s n := by
  have keeps : (Rule.debits r amount).Keeps Call.yields fun k => k = n :=
    (Rule.debits_keeps _).narrow fun _ => Call.quiet_of_yields
  refine (Obeys.of_only keeps gives rfl).mono Rule.debits_monotone fun given s k ended => ?_
  obtain ⟨rfl,rfl⟩ := ended
  exact ends s

/-- A success has landed once, and a failure never. -/
def Counts {ε : Type} (answer : Except ε α) (n : Nat) : Prop := n = if answer.isOk then 1 else 0

namespace Optimistic

theorem debits_update (r : Record) (amount : Amount) (s : σ) :
    (update r.id fun balance => ofError (Account.debit balance amount)).Obeys (Rule.debits r amount)
      (fun answer _ n => Counts answer n) s 0 := by
  simp only [update,read,conditionalUpdate,obeys_bind,obeys_perform]
  intro answer found
  obtain ⟨k,r',debited,rfl⟩ := found rfl
  simp only [obeys_pure,obeys_ofError]
  cases going : Account.debit r'.balance amount with
  | error e => rfl
  | ok balance =>
    intro due
    cases due with
    | error e => rfl
    | ok _ =>
      intro still present
      obtain ⟨_,_,_,rfl⟩ := present rfl
      rw [obeys_ite,if_neg (by simp)]
      simp only [obeys_bind,obeys_perform,obeys_ofOutcome]
      intro owner granted
      cases granted with
      | error e => rfl
      | ok _ => exact ⟨rfl,debited.lands going,fun _ _ => rfl,fun _ _ => rfl⟩

end Optimistic

theorem Rule.debits_aside (known : Nat → Prop) : (Rule.debits r amount).Keeps Call.aside known :=
  (Rule.debits_keeps known).narrow fun _ => Call.quiet_of_aside

theorem Scenario.obeys_worker {G : Type} {rule : Rule G} {p : Procedure Unit α} {goal : WorkerResult α → G → Prop}
    {g : G} : (worker p).Obeys rule goal g ↔
      p.Obeys rule (fun answer _ => goal (WorkerResult.ofOutcome answer)) () g := by
  change Program.Obeys _ _ ((p.start ()).bind fun r => .done (WorkerResult.ofOutcome r.1)) g ↔ _
  rw [Program.obeys_bind]
  rfl

theorem Scenario.debits_worker {p : Procedure Unit α}
    (obeys : p.Obeys (Rule.debits r amount) (fun answer _ n => Counts answer n) () 0) :
    (worker p).Obeys (Rule.debits r amount) Counts 0 := by
  refine obeys_worker.mpr (obeys.mono Rule.debits_monotone fun answer _ n counts => ?_)
  rcases answer with (e | c) | a <;> exact counts

theorem Scenario.debits_optimisticWorker (r : Record) (amount : Amount) (retry : RetryConfig) :
    (optimisticWorker r.id amount retry).Obeys (Rule.debits r amount) Counts 0 := by
  refine debits_worker ?_
  simp only [Ledger.optimisticUpdate,RetryPolicy.attempt,RetryPolicy.run,obeys_bind,obeys_perform]
  intro now
  let never (n : Nat) : Prop := n = 0
  let once (n : Nat) : Prop := n = 1
  have attempts (s : Unit) (n : Nat) (start : never n) :
      (Optimistic.update r.id fun balance => ofError (Account.debit balance amount)).Obeys (Rule.debits r amount)
        (fun answer _ => RetryPolicy.Told (fun _ => never) (fun _ => once) answer) s n := by
    subst start
    refine (Optimistic.debits_update r amount s).mono Rule.debits_monotone fun answer _ n counts => ?_
    cases answer <;> exact counts
  refine ((Ledger.retryPolicy "optimistic_update" retry).obeys_loop Rule.debits_monotone (Rule.debits_aside never)
    (fun _ => Rule.debits_aside never) (fun _ => Rule.debits_aside once) rfl (fun _ _ _ start => start) attempts _ _
    rfl).mono Rule.debits_monotone fun answer s n ends => ?_
  rcases answer with c | e | o
  · obtain ⟨_,_,ends⟩ := ends
    exact ends
  · cases e <;> exact ends
  · exact ends

namespace Session

variable {t : Transaction} {n : Nat}

theorem debits_read {goal : Outcome Record → Transaction → Nat → Prop} (unstaged : t.writes[r.id]? = none)
    (found : ∀ k r', r.Debited amount k r' → goal (.ok r') t n) (fails : ∀ e, goal (.error e) t n) :
    (read r.id).Obeys (Rule.debits r amount) goal t n := by
  simp only [read,ensureActive,obeys_bind,obeys_get,obeys_ofError,obeys_perform]
  cases t.ensureActive with
  | error e => exact fails _
  | ok _ =>
    intro answer present
    obtain ⟨k,r',debited,rfl⟩ := present rfl
    rw [← debited.named] at unstaged
    simp only [obeys_bind,obeys_get,obeys_ofOutcome,view_unstaged unstaged]
    exact found k r' debited

theorem debits_write {goal : Outcome Record → Transaction → Nat → Prop} {expected : Version} {balance : Amount}
    (unstaged : t.writes[r.id]? = none)
    (found : ∀ k r', r.Debited amount k r' → r'.version = expected →
      goal (r'.next balance) (stageFirst t r' balance) n)
    (fails : ∀ e, goal (.error e) t n) :
    (write r.id expected balance).Obeys (Rule.debits r amount) goal t n := by
  unfold write
  rw [obeys_bind]
  refine debits_read unstaged (fun k r' debited => ?_) fails
  have unstaged' : t.writes[r'.id]? = none := by rw [debited.named,unstaged]
  simp only [obeys_bind,obeys_get,obeys_set,obeys_ofOutcome]
  rcases stage_unstaged unstaged' with ⟨staged,current⟩ | ⟨e,refused⟩
  · rw [staged]
    exact found k r' debited current
  · rw [refused]
    exact fails e

theorem debits_commit {staged : StagedWrite} (here : t.writes[r.id]? = some staged)
    (lands : r.Lands amount staged.base ⟨r.id, staged.balance, staged.version⟩) :
    commit.Obeys (Rule.debits r amount) (fun answer _ n => Counts answer n) t 0 := by
  have aborts (e : Error) : (abort e.message >>= fun _ => fail e : Session Unit).Obeys (Rule.debits r amount)
      (fun answer _ n => Counts answer n) t 0 := Rule.debits_gives (yields_abort_fail e) fun _ => rfl
  simp only [commit,obeys_bind,obeys_get]
  split
  · rw [obeys_bind]
    exact Rule.debits_gives yields_releaseHeld fun _ => rfl
  · have pending : ¬ t.isReadOnly = true := by
      intro empty
      have none_here : t.writes[r.id]? = none := Std.TreeMap.getElem?_of_isEmpty empty
      cases here.symm.trans none_here
    rw [obeys_ite,if_neg pending,obeys_bind,obeys_perform]
    intro due
    cases due with
    | error e => exact aborts e
    | ok _ =>
      dsimp only
      rw [obeys_bind,obeys_perform]
      refine ⟨staged,here,lands,?_,aborts⟩
      dsimp only
      rw [obeys_bind,obeys_modify]
      exact Rule.debits_gives yields_releaseHeld fun _ => rfl

theorem debits_conclude {k : Nat} {r' : Record} {balance : Amount} (debited : r.Debited amount k r')
    (going : Account.debit r'.balance amount = .ok balance) (a : α) :
    (conclude (.ok a)).Obeys (Rule.debits r amount) (fun answer _ n => Counts answer n) (stageFirst t r' balance) 0 := by
  have here : (stageFirst t r' balance).writes[r.id]? = some ⟨r'.version, balance, 1⟩ := by
    simp [stageFirst,debited.named]
  dsimp only [conclude]
  rw [obeys_bind]
  refine (debits_commit here (debited.lands going)).mono Rule.debits_monotone fun answer t n counts => ?_
  cases answer <;> exact counts

end Session

namespace Scenario

theorem debits_lockedDebit (l : Locking) (r : Record) (amount : Amount) (hold : Duration) :
    (lockedDebit l r.id amount hold).Obeys (Rule.debits r amount) (fun answer _ n => Counts answer n) () 0 := by
  have fails (e : Failure) (own : Transaction) : (Session.conclude (.error e : Outcome Duration)).Obeys
      (Rule.debits r amount) (fun answer _ n => Counts answer n) own 0 :=
    Rule.debits_gives (Session.yields_conclude_error e) fun _ => rfl
  simp only [lockedDebit,Locking.withLocks,Locking.run,withTransaction,obeys_bind,obeys_perform,obeys_within,
    obeys_outcome,obeys_ofOutcome]
  intro requested owner
  have keeps : (Rule.debits r amount).Keeps Call.locks fun n => n = 0 :=
    (Rule.debits_keeps _).narrow fun _ => Call.quiet_of_locks
  refine (l.keeps_acquireAll Rule.debits_monotone keeps rfl).mono Rule.debits_monotone fun answer own n locked => ?_
  obtain ⟨rfl,kept⟩ := locked
  cases answer with
  | error e => exact fails e own
  | ok _ =>
    have unstaged : own.writes[r.id]? = none := by
      rw [kept rfl]
      exact Std.TreeMap.getElem?_emptyc
    intro now
    refine Session.debits_read unstaged (fun k r' debited => ?_) fun e => fails e own
    dsimp only
    rw [obeys_ofError]
    cases going : Account.debit r'.balance amount with
    | error e => exact fails _ own
    | ok balance =>
      dsimp only [Outcome.ofError]
      refine Session.debits_write unstaged (fun j r'' again current => ?_) fun e => fails e own
      -- the record is read again for the write; at the same version it is the same
      cases again.unique debited current
      cases written : r'.next balance with
      | error e => exact fails e _
      | ok after =>
        dsimp only
        rw [obeys_ite]
        split
        · rw [obeys_bind,obeys_perform]
          exact fun slept => Session.debits_conclude debited going _
        · exact Session.debits_conclude debited going _

end Scenario

theorem Ledger.debits_answer {s : Ledger} {c : Call} {promise : c.Reply → Nat → Prop} {n total : Nat} {r' : Record}
    (prompt : c.waits = false) (obeys : Rule.debits r amount c promise n) (here : s.store.view r.id = some r')
    (debited : r.Debited amount total r') : ∃ more, promise (s.answer c).1 (n + more) ∧
      ∃ r'', (s.answer c).2.store.view r.id = some r'' ∧ r.Debited amount (total + more) r'' := by
  have still {answer : c.Reply} (promised : promise answer n) (same : answer = (s.answer c).1)
      (view : (s.answer c).2.store.view r.id = s.store.view r.id) : ∃ more, promise (s.answer c).1 (n + more) ∧
        ∃ r'', (s.answer c).2.store.view r.id = some r'' ∧ r.Debited amount (total + more) r'' :=
    ⟨0,same ▸ promised,r',view.trans here,debited⟩
  cases c with
  | acquire | sleep => cases prompt
  | lookup id =>
    refine still (obeys _ fun same => ?_) rfl rfl
    subst same
    exact ⟨total,r',debited,here⟩
  | install id expected balance =>
    obtain ⟨rfl,lands,goes,fails⟩ := obeys
    cases going : (s.store.install r.id expected balance).1 with
    | ok after =>
      obtain ⟨r'',there,current,next,written⟩ := Store.view_install_ok going
      cases here.symm.trans there
      have laid : after = ⟨r.id, balance, expected + 1⟩ := by
        rw [Record.next_eq next,debited.named,current]
      refine ⟨1,?_,after,?_,laid ▸ lands total r' debited current⟩
      · change promise (s.store.install r.id expected balance).1 (n + 1)
        rw [going]
        exact goes after
      · change (s.store.install r.id expected balance).2.view r.id = some after
        rw [written,set_self]
    | error e => exact still (fails e) going.symm (congrFun (Store.view_install_error going) r.id)
  | apply writes =>
    obtain ⟨staged,found,lands,goes,fails⟩ := obeys
    cases going : (s.store.apply writes).1 with
    | ok _ =>
      obtain ⟨current,laid⟩ := Store.view_apply_ok going
      obtain ⟨r'',there,base⟩ := current r.id staged found
      cases here.symm.trans there
      refine ⟨1,?_,_,?_,lands total r' debited base⟩
      · change promise (s.store.apply writes).1 (n + 1)
        rw [going]
        exact goes
      · change (s.store.apply writes).2.view r.id = _
        rw [laid,overlay,found]
    | error e => exact still (fails e) going.symm (congrFun (Store.view_apply_error going) r.id)
  | _ => exact still (obeys _) rfl (s.view_of_spares prompt rfl)

/-- The first workers debit the record and the others spare it. Between them it has been debited as often as the
first ones know of. -/
def debitPact (r : Record) (amount : Amount) (operations : Nat) : Pact Nat where
  rule i := if i < operations then Rule.debits r amount else Rule.sparing r.id
  holds s g := ∃ r', s.store.view r.id = some r' ∧ r.Debited amount (∑ i ∈ Finset.range operations, g i) r'
  acquires obeys answer := by
    split at obeys
    · exact obeys answer
    · exact obeys.2 answer
  sleeps obeys slept _ := by
    split at obeys
    · exact obeys slept
    · exact obeys.2 slept
  elapse _ before := before
  locks _ before := before
  answer {i c promise s g} prompt obeys before := by
    obtain ⟨r',here,debited⟩ := before
    split at obeys
    · next inside =>
      obtain ⟨more,promised,r'',there,once_more⟩ := Ledger.debits_answer prompt obeys here debited
      refine ⟨g i + more,promised,r'',there,?_⟩
      have member : i ∈ Finset.range operations := Finset.mem_range.mpr inside
      rw [Finset.sum_eq_add_sum_sdiff_singleton_of_mem member,Nat.add_right_comm] at once_more
      rwa [Finset.sum_update_of_mem member]
    · refine ⟨g i,obeys.2 _,r',(s.view_of_spares prompt obeys.1).trans here,?_⟩
      rwa [Function.update_eq_self]

theorem debitPact_rule_of_lt {operations i : Nat} (inside : i < operations) :
    (debitPact r amount operations).rule i = Rule.debits r amount := if_pos inside

theorem debitPact_rule_of_not_lt {operations i : Nat} (outside : ¬ i < operations) :
    (debitPact r amount operations).rule i = Rule.sparing r.id := if_neg outside

end VersionedLedger

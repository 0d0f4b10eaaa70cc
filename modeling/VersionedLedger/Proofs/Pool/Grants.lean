import VersionedLedger.Proofs.Lock.Grants
import VersionedLedger.Proofs.Pool.Refusal

/-! The locks of a pool as an account: every end of a request and every return of locks is written down, and owners and
counters are what the account says, in every schedule and whoever asks for what. -/
namespace VersionedLedger

open LockEvent

def Call.givesBack? : Call → Option LockEvent
  | .release owner id => some (.gave owner [id])
  | .releaseAll owner ids => some (.gave owner ids)
  | _ => none

namespace Worker

variable {α : Type}

def returns? : Worker α → Option LockEvent
  | ready (.call c _) => c.givesBack?
  | _ => none

def lapses? (now : Time) : Worker α → Option LockEvent
  | blocked w _ =>
    if now < w.deadline then none
    else
      let waited : Duration := now - w.since
      some (.ended w.owner w.id (.error (.error (.lockTimeout w.id waited.toMillis))))
  | _ => none

end Worker

namespace Pool

variable {α : Type} {p : Pool α} {m : Move}

/-- What a move does with the locks: it may end a request, or give locks back. -/
def lockEvent? (p : Pool α) (m : Move) : Option LockEvent :=
  match p.request? m with
  | some (owner, id) => ((p.ledger.store.locks.request owner id true).1.reply? id).map (.ended owner id)
  | none => match m with
    | .step i => (p.workers[i]?).bind Worker.returns?
    | .expire i => (p.workers[i]?).bind (Worker.lapses? p.ledger.clock)
    | .elapse _ => none

def lockLog (p : Pool α) : List Move → List LockEvent
  | [] => []
  | m :: moves => (p.lockEvent? m).toList ++ (p.move m).lockLog moves

theorem does_answer (s : Ledger) {c : Call} (prompt : c.waits = false) :
    s.store.locks.Does c.givesBack? (s.answer c).2.store.locks := by
  cases named : c.lockOwner? with
  | none =>
    have nothing : c.givesBack? = none := by
      cases c with
      | release | releaseAll => cases named
      | _ => rfl
    rw [s.locks_answer named,nothing]
    exact .quiet
  | some owner =>
    cases c with
    | release owner id => exact .release owner id
    | releaseAll owner ids => exact .releaseAll owner ids
    | acquire => cases prompt
    | _ => cases named

theorem does_advance (s : Ledger) {c : Call} {next : c.Reply → Program α}
    (idle : ∀ owner id timeout existing, c = .acquire owner id timeout existing →
      (existing && !s.store.contains id) = true) :
    s.store.locks.Does c.givesBack? (advance s (.call c next)).2.store.locks := by
  cases c with
  | acquire owner id timeout existing =>
    dsimp only [advance]
    rw [if_pos (idle owner id timeout existing rfl)]
    exact .quiet
  | sleep => exact .quiet
  | _ => exact does_answer s rfl

theorem does_step {i : Nat} (idle : p.request? (.step i) = none) :
    p.ledger.store.locks.Does ((p.workers[i]?).bind Worker.returns?) (p.step i).ledger.store.locks := by
  dsimp only [request?] at idle
  unfold step
  rcases present : p.workers[i]? with _ | ⟨a | ⟨c,next⟩⟩ | ⟨wake,watched,next⟩ | ⟨w,next⟩ | a
  · exact .quiet
  · exact .quiet
  · refine does_advance p.ledger fun owner id timeout existing same => ?_
    subst same
    rw [present] at idle
    simpa using idle
  · dsimp only
    split
    · exact .quiet
    · split <;> exact .quiet
  · rw [present] at idle
    dsimp only
    split
    · next woken => simp [woken] at idle
    · exact .quiet
  · exact .quiet

theorem does_expire {i : Nat} (idle : p.request? (.expire i) = none) :
    p.ledger.store.locks.Does ((p.workers[i]?).bind (Worker.lapses? p.ledger.clock))
      (p.expire i).ledger.store.locks := by
  dsimp only [request?] at idle
  unfold expire
  rcases present : p.workers[i]? with _ | q | ⟨wake,watched,next⟩ | ⟨w,next⟩ | a
  · exact .quiet
  · exact .quiet
  · exact .quiet
  · rw [present] at idle
    dsimp only [Option.bind,Worker.lapses?]
    split
    · exact .quiet
    · next due =>
      split
      · next taken => exact .giveUp w.owner w.id _ taken
      · next free => simp [due,free] at idle
  · exact .quiet

theorem does_move (p : Pool α) (m : Move) :
    p.ledger.store.locks.Does (p.lockEvent? m) (p.move m).ledger.store.locks := by
  unfold lockEvent?
  cases asks : p.request? m with
  | some request =>
    obtain ⟨owner,id⟩ := request
    obtain ⟨first,locks⟩ := locks_of_request asks
    rw [locks]
    dsimp only
    rw [LockManager.round_request true first]
    exact .round (p.ledger.store.locks.decides_request owner id first)
  | none =>
    cases m with
    | elapse d => exact .quiet
    | step i => exact does_step asks
    | expire i => exact does_expire asks

theorem accounted_play (p : Pool α) (moves : List Move) :
    p.ledger.store.locks.Accounted (p.lockLog moves) (p.play moves).ledger.store.locks := by
  induction moves generalizing p with
  | nil => exact p.ledger.store.locks.accounted_nil
  | cons m moves ih => exact (p.does_move m).accounted (ih (p.move m))

def blocked (p : Pool α) : Nat := p.workers.countP fun w => w.wait?.isSome

private theorem countP_set_add {β : Type} {l : List β} {i : Nat} {b : β} (present : l[i]? = some b) (q : β → Bool)
    (a : β) : (l.set i a).countP q + (if q b then 1 else 0) = l.countP q + if q a then 1 else 0 := by
  obtain ⟨inside,rfl⟩ := List.getElem?_eq_some_iff.mp present
  have member : q l[i] = true → 0 < l.countP q := fun here => List.countP_pos_iff.mpr ⟨_,List.getElem_mem inside,here⟩
  rw [List.countP_set inside]
  by_cases here : q l[i] = true
  · have positive := member here
    rw [if_pos here]
    omega
  · rw [if_neg here]
    rfl

theorem blocked_update {i : Nat} {w : Worker α} (present : p.workers[i]? = some w) (after : Worker α) (s : Ledger) :
    (p.update i (after, s)).blocked + (if w.wait?.isSome then 1 else 0) =
      p.blocked + if after.wait?.isSome then 1 else 0 := by
  have same (w : Worker α) : w.wake.wait?.isSome = w.wait?.isSome := by cases w <;> rfl
  change (List.set (if _ then _ else _) i after).countP _ + _ = _
  split
  · have woken : (p.workers.map Worker.wake)[i]? = some w.wake := by rw [List.getElem?_map,present]; rfl
    have counted := countP_set_add woken (fun w => w.wait?.isSome) after
    rw [same,List.countP_map] at counted
    rw [counted]
    exact congrArg (· + _) (List.countP_congr fun w _ => by rw [Function.comp_apply,same])
  · exact countP_set_add present (fun w => w.wait?.isSome) after

theorem blocked_start (s : Ledger) (programs : List (Program α)) : (start s programs).blocked = 0 := by
  refine List.countP_eq_zero.mpr fun w member => ?_
  obtain ⟨q,_,rfl⟩ := List.mem_map.mp member
  exact Bool.false_ne_true

theorem timeouts_move (before : p.ledger.store.locks.stats.timeouts + p.blocked ≤ p.ledger.store.locks.stats.waits)
    (m : Move) : (p.move m).ledger.store.locks.stats.timeouts + (p.move m).blocked ≤
      (p.move m).ledger.store.locks.stats.waits := by
  rcases p.move_cases m with ⟨d,passes⟩ | same | ⟨i,w,after,s,present,turn,moved,_⟩
  · rw [passes]
    exact before
  · rwa [same]
  · rw [moved]
    have blocked := blocked_update present after s
    cases turn with
    | finish | doze | rise | cut | missing => exact Nat.le_trans (Nat.le_of_eq (congrArg _ blocked)) before
    | answer c next prompt =>
      rw [ledger_update,p.ledger.lockStats_answer prompt]
      exact Nat.le_trans (Nat.le_of_eq (congrArg _ blocked)) before
    | @round _ lw first next r locks asks decides =>
      have first_waits : w.wait?.isSome = !first := by cases asks <;> rfl
      rw [first_waits] at blocked
      change locks.stats.timeouts + _ ≤ locks.stats.waits
      cases decides <;> cases first <;> simp [Worker.resume,Worker.wait?] at blocked ⊢ <;> omega
    | giveUp lw next waited taken =>
      change p.ledger.store.locks.stats.timeouts + 1 + _ ≤ p.ledger.store.locks.stats.waits
      -- the wait that is given up was one of those that are blocked
      simp [Worker.wait?] at blocked
      omega

theorem timeouts_play (before : p.ledger.store.locks.stats.timeouts + p.blocked ≤ p.ledger.store.locks.stats.waits)
    (moves : List Move) : (p.play moves).ledger.store.locks.stats.timeouts + (p.play moves).blocked ≤
      (p.play moves).ledger.store.locks.stats.waits := by
  induction moves generalizing p with
  | nil => exact before
  | cons m moves ih => exact ih (timeouts_move before m)

theorem asks_unique {s : Ledger} {w : Worker α} {lw lw' : LockWait} {first first' : Bool}
    {next next' : Outcome Unit → Program α} (asks : Worker.Asks s w lw first next)
    (again : Worker.Asks s w lw' first' next') : lw = lw' ∧ first = first' ∧ next = next' := by
  cases asks <;> cases again <;> exact ⟨rfl,rfl,rfl⟩

theorem lapsed_of_asks {i : Nat} {w : Worker α} {lw : LockWait} {first : Bool} {next : Outcome Unit → Program α}
    (present : p.workers[i]? = some w) (asks : Worker.Asks p.ledger w lw first next)
    (turn : m = .step i ∨ m = .expire i) (idle : p.request? m = none) :
    (∃ reply, p.lockEvent? m = some (.ended lw.owner lw.id reply) ∧
      (p.move m).workers[i]? = some (.ready (next reply))) ∨
    p.lockEvent? m = none ∧ (p.move m).workers[i]? = some w := by
  unfold lockEvent?
  rw [idle]
  rcases turn with rfl | rfl
  · dsimp only [request?] at idle
    rw [present] at idle
    dsimp only [move]
    unfold step
    rw [present]
    cases asks with
    | first owner id timeout existing next found =>
      dsimp only at idle
      split at idle
      · next missing => cases existing <;> simp_all
      · cases idle
    | again w next =>
      dsimp only at idle ⊢
      split at idle
      · cases idle
      · next asleep =>
        rw [if_neg asleep]
        exact .inr ⟨rfl,present⟩
  · dsimp only [request?] at idle
    rw [present] at idle
    dsimp only [move]
    unfold expire
    rw [present]
    cases asks with
    | first => exact .inr ⟨rfl,present⟩
    | again w next =>
      dsimp only [Option.bind,Worker.lapses?] at idle ⊢
      by_cases early : p.ledger.clock < lw.deadline
      · rw [if_pos early,if_pos early]
        exact .inr ⟨rfl,present⟩
      · have taken : p.ledger.store.locks.table.heldByOther lw.owner lw.id = true := by
          simpa [early] using idle
        rw [if_neg early,if_neg early,if_pos taken]
        exact .inl ⟨_,rfl,worker_update_self present _ _⟩

theorem replied_of_asks {i : Nat} {w : Worker α} {lw : LockWait} {first : Bool} {next : Outcome Unit → Program α}
    (present : p.workers[i]? = some w) (asks : Worker.Asks p.ledger w lw first next)
    (turn : m = .step i ∨ m = .expire i) :
    (∃ reply, p.lockEvent? m = some (.ended lw.owner lw.id reply) ∧
      (p.move m).workers[i]? = some (.ready (next reply))) ∨
    p.lockEvent? m = none ∧
      ((p.move m).workers[i]? = some w ∨ ∃ lw', (p.move m).workers[i]? = some (.blocked lw' next)) := by
  cases asked : p.request? m with
  | none => exact (lapsed_of_asks present asks turn asked).imp_right (And.imp_right Or.inl)
  | some request =>
    obtain ⟨owner,id⟩ := request
    obtain ⟨j,w',lw',first',next',made,present',asks',rfl,rfl,moved⟩ := exists_round_of_request asked
    obtain rfl : j = i := by
      rcases turn with rfl | rfl <;> rcases made with same | same <;> cases same <;> rfl
    cases present.symm.trans present'
    obtain ⟨rfl,rfl,rfl⟩ := asks_unique asks asks'
    unfold lockEvent?
    rw [asked,moved,lockRound_eq,worker_update_self present,LockManager.round_request first true]
    dsimp only
    cases (p.ledger.store.locks.request lw.owner lw.id true).1 with
    | granted | held | deadlock => exact .inl ⟨_,rfl,rfl⟩
    | waiting => exact .inr ⟨rfl,.inr ⟨_,rfl⟩⟩

/-- Any programs ask for locks and give them back, for any owners and with their moves in any order. The owners are those
who have been granted a lock and have not given it back since. As many locks have been granted as are held now or have
been freed; a request that comes to its end is counted once, or not at all if its owner has the lock already; and
only requests that have waited time out. -/
theorem locks_accounted {s : Ledger} (fresh : s.store.locks = {}) (programs : List (Program α)) (moves : List Move) :
    let p := (start s programs).play moves
    let log := (start s programs).lockLog moves
    let stats := p.ledger.store.locks.stats
    (∀ (x : RecordId) (owner : TxnId), p.table.owners[x]? = some owner ↔ Outstanding log owner x) ∧
    stats.acquired = p.ledger.store.locks.heldCount + total frees (fun _ => none) log ∧
    stats.acquired = total grants (fun _ => none) log ∧ stats.deadlocks = log.countP isRefusal ∧
    stats.timeouts = log.countP isTimeout ∧ stats.timeouts ≤ stats.waits ∧
    ∀ m, let after := (p.move m).ledger.store.locks
      (match p.lockEvent? m with
        | some (.ended owner id reply) => p.ledger.store.locks.Ends owner id reply after.stats
        | some (.gave owner ids) => after.stats = stats ∧ ∀ x : RecordId, after.table.owners[x]? =
            if x ∈ ids ∧ p.table.owners[x]? = some owner then none else p.table.owners[x]?
        | none => after.table.owners = p.table.owners ∧
            ∃ waits, stats.waits ≤ waits ∧ after.stats = { stats with waits }) ∧
      ∀ i w lw first next, p.workers[i]? = some w → Worker.Asks p.ledger w lw first next →
        m = .step i ∨ m = .expire i →
        (∃ reply, p.lockEvent? m = some (.ended lw.owner lw.id reply) ∧
          (p.move m).workers[i]? = some (.ready (next reply))) ∨
        p.lockEvent? m = none ∧
          ((p.move m).workers[i]? = some w ∨ ∃ lw', (p.move m).workers[i]? = some (.blocked lw' next)) := by
  intro p log stats
  have none_held : (start s programs).ledger.store.locks = {} := fresh
  have accounted := (start s programs).accounted_play moves
  rw [none_held] at accounted
  have empty : LockManager.held {} = fun _ => none := funext fun x => Std.TreeMap.getElem?_emptyc
  obtain ⟨held,size,acquired,deadlocks,timeouts,exclusive⟩ := accounted
  rw [empty] at held size acquired exclusive
  have size : p.ledger.store.locks.heldCount + total frees (fun _ => none) log =
      0 + total grants (fun _ => none) log := size
  have acquired : stats.acquired = 0 + total grants (fun _ => none) log := acquired
  have waits : stats.timeouts + p.blocked ≤ stats.waits := by
    refine timeouts_play ?_ moves
    rw [none_held,blocked_start]
  refine ⟨fun x owner => ?_,?_,?_,deadlocks.trans (Nat.zero_add _),timeouts.trans (Nat.zero_add _),
    Nat.le_trans (Nat.le_add_right _ _) waits,fun m => ⟨?_,?_⟩⟩
  · have same : p.table.owners[x]? = holders (fun _ => none) log x := congrFun held x
    rw [same]
    refine (holders_eq_some_iff exclusive).trans (or_iff_left ?_)
    rintro ⟨taken,_⟩
    cases taken
  · omega
  · omega
  · have does := p.does_move m
    generalize p.lockEvent? m = event at does
    cases event with
    | none => exact does.silent
    | some e =>
      cases e with
      | ended owner id reply => exact does.ends
      | gave owner ids => exact does.gave
  · intro i w lw first next present asks turn
    exact replied_of_asks present asks turn

/-- Owner 1 asks twice for a record and gives it back once; owner 2 gives it back without having it, and gets it later;
owner 3 waits in vain. -/
def threeOwners : List (Program Unit) :=
  [.call (.acquire 1 7 none false) fun _ => .call (.acquire 1 7 none false) fun _ => .call (.release 2 7) fun _ =>
      .call (.release 1 7) fun _ => .done (),
    .call (.acquire 2 7 none false) fun _ => .done (),
    .call (.acquire 3 7 (some 5) false) fun _ => .done ()]

theorem locks_accounted_threeOwners :
    let moves : List Move := [.step 0,.step 1,.step 0,.step 0,.step 0,.step 1,.step 2,.elapse 5,.expire 2]
    let p := (start {} threeOwners).play moves
    let log := (start {} threeOwners).lockLog moves
    p.table.owners[(7 : RecordId)]? = some 2 ∧ Outstanding log 2 7 ∧ ¬ Outstanding log 1 7 ∧
    p.ledger.store.locks.stats = { acquired := 2, waits := 2, timeouts := 1 } ∧
    2 = p.ledger.store.locks.heldCount + total frees (fun _ => none) log := by
  intro moves p log
  have stats : p.ledger.store.locks.stats = { acquired := 2, waits := 2, timeouts := 1 } := by decide +kernel
  have taken : p.table.owners[(7 : RecordId)]? = some 2 := by decide +kernel
  obtain ⟨owners,acquired,_⟩ := locks_accounted (s := {}) rfl threeOwners moves
  refine ⟨taken,(owners 7 2).mp taken,fun other => ?_,stats,?_⟩
  · cases taken.symm.trans ((owners 7 1).mpr other)
  · exact (congrArg LockStats.acquired stats).symm.trans acquired

end Pool

end VersionedLedger

import VersionedLedger.Ledger.State

/-! Programs that run side by side on one ledger. A pool moves by steps of single workers, by the
deadlines of those that wait, and by the passing of time; a schedule is any list of such moves.
Freeing a lock wakes every waiting worker, which then makes its request again. A watched sleep ends
at the first turn that finds it cancelled. -/
namespace VersionedLedger

structure LockWait where
  owner : TxnId
  id : RecordId
  since : Time
  deadline : Time
  /-- A lock has been freed since the last round. -/
  woken : Bool := false

inductive Worker (α : Type) : Type
  | ready (p : Program α)
  | asleep (wake : Time) (watched : Bool) (next : Bool → Program α)
  | blocked (w : LockWait) (next : Outcome Unit → Program α)
  | finished (a : α)

namespace Worker

variable {α : Type}

def wake : Worker α → Worker α
  | blocked w next => blocked { w with woken := true } next
  | other => other

def result? : Worker α → Option α
  | finished a => some a
  | _ => none

/-- Whether the worker can go on without more time passing. -/
def canStep (s : Ledger) : Worker α → Bool
  | ready _ => true
  | asleep wake watched _ => wake ≤ s.clock || watched && s.isCancelled
  | blocked w _ => w.woken
  | finished _ => false

def canExpire (now : Time) : Worker α → Bool
  | blocked w _ => w.deadline ≤ now
  | _ => false

def due? (s : Ledger) : Worker α → Option Time
  | asleep wake watched _ => some (if watched then s.cancellation.due.elim wake (min wake) else wake)
  | blocked w _ => some w.deadline
  | _ => none

end Worker

structure Pool (α : Type) where
  ledger : Ledger
  workers : List (Worker α) := []

namespace Pool

variable {α : Type}

def lockRound (s : Ledger) (w : LockWait) (first : Bool) (next : Outcome Unit → Program α) :
    Worker α × Ledger :=
  match s.requestLock w.owner w.id first with
  | (.granted, s) | (.held, s) => (.ready (next (.ok ())), s)
  | (.deadlock, s) => (.ready (next (.error (.error (.deadlock w.id)))), s)
  | (.waiting, s) => (.blocked { w with woken := false } next, s)

def advance (s : Ledger) : Program α → Worker α × Ledger
  | .done a => (.finished a, s)
  | .call (.acquire owner id timeout existing) next =>
    if existing && !s.store.contains id then (.ready (next (.error (.error (.notFound id)))), s)
    else lockRound s ⟨owner, id, s.clock, s.clock + s.lockBound timeout, false⟩ true next
  | .call (.sleep d watched) next =>
    (.asleep (s.clock + d) watched next, s)
  | .call c next =>
    let (reply, s) := s.answer c
    (.ready (next reply), s)

/-- Takes in what one worker did; if that freed a lock, all waiting workers are woken. -/
def update (p : Pool α) (i : Nat) : Worker α × Ledger → Pool α
  | (w, s) =>
    let freed := s.store.locks.heldCount < p.ledger.store.locks.heldCount
    let others := if freed then p.workers.map Worker.wake else p.workers
    { ledger := s, workers := others.set i w }

def step (p : Pool α) (i : Nat) : Pool α :=
  match p.workers[i]? with
  | some (.ready program) => p.update i (advance p.ledger program)
  | some (.asleep wake watched next) =>
    if watched && p.ledger.isCancelled then p.update i (.ready (next false), p.ledger)
    else if wake ≤ p.ledger.clock then p.update i (.ready (next true), p.ledger) else p
  | some (.blocked w next) =>
    if w.woken then p.update i (lockRound p.ledger w false next) else p
  | _ => p

/-- The wait of worker `i` ends at its deadline: without the lock if another owner still has it,
else with one more round. -/
def expire (p : Pool α) (i : Nat) : Pool α :=
  match p.workers[i]? with
  | some (.blocked w next) =>
    if p.ledger.clock < w.deadline then p
    else if p.ledger.store.locks.table.heldByOther w.owner w.id then
      let waited : Duration := p.ledger.clock - w.since
      p.update i (.ready (next (.error (.error (.lockTimeout w.id waited.toMillis)))),
        p.ledger.onLocks (·.giveUp w.owner))
    else p.update i (lockRound p.ledger w false next)
  | _ => p

inductive Move
  | step (i : Nat)
  | expire (i : Nat)
  | elapse (d : Duration)
  deriving DecidableEq, Repr

def move (p : Pool α) : Move → Pool α
  | .step i => p.step i
  | .expire i => p.expire i
  | .elapse d => { p with ledger := p.ledger.elapse d }

def play (p : Pool α) (moves : List Move) : Pool α := moves.foldl move p

def spawn (p : Pool α) (program : Program α) : Nat × Pool α :=
  (p.workers.length, { p with workers := p.workers ++ [.ready program] })

def result? (p : Pool α) (i : Nat) : Option α := (p.workers[i]?).bind Worker.result?

/-- A move that needs no more time: the first worker that can step, else the first at its
deadline. -/
def promptMove? (p : Pool α) : Option Move :=
  match p.workers.findIdx? (·.canStep p.ledger) with
  | some i => some (.step i)
  | none => (p.workers.findIdx? (·.canExpire p.ledger.clock)).map .expire

def pause? (p : Pool α) : Option Move :=
  (p.workers.filterMap (Worker.due? p.ledger)).min?.map fun t => .elapse (t - p.ledger.clock)

def moveFor? (p : Pool α) (i : Nat) : Option Move :=
  match p.workers[i]? with
  | none | some (.finished _) => none
  | some w =>
    if w.canStep p.ledger then some (.step i)
    else p.promptMove? <|> p.pause?

def drive (choose : Pool α → Option Move) : (limit : Nat) → Pool α → Pool α
  | 0, p => p
  | limit + 1, p =>
    match choose p with
    | some m => drive choose limit (p.move m)
    | none => p

/-- More moves than any finite piece of work makes. -/
def moveLimit : Nat := 1000000000000000

def settle (p : Pool α) : Pool α := drive promptMove? moveLimit p

def await (p : Pool α) (i : Nat) : Pool α := drive (moveFor? · i) moveLimit p

def finish (p : Pool α) : Pool α :=
  drive (fun p => p.promptMove? <|> p.pause?) moveLimit p

def runBeside (p : Pool α) (program : Program α) : Option α × Pool α :=
  let (i, p) := p.spawn program
  let p := p.await i
  (p.result? i, p)

theorem play_append (p : Pool α) (before after : List Move) :
    p.play (before ++ after) = (p.play before).play after := List.foldl_append

/-- What a scheduler does is one of the schedules. -/
theorem exists_play_of_drive (choose : Pool α → Option Move) (limit : Nat) (p : Pool α) :
    ∃ moves, drive choose limit p = p.play moves := by
  induction limit generalizing p with
  | zero => exact ⟨[], rfl⟩
  | succ limit ih =>
    unfold drive
    split
    · next m _ =>
      obtain ⟨moves, run⟩ := ih (p.move m)
      exact ⟨m :: moves, run⟩
    · exact ⟨[], rfl⟩

end Pool

end VersionedLedger

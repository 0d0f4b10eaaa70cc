import VersionedLedger.Circuit.Registry
import VersionedLedger.Store.State
import VersionedLedger.Transfer.Deadlocks

/-! Work on a ledger as a value: a program is done, or makes one call and goes on with the reply.
Each call is one indivisible step, so programs that run side by side are interleaved between
calls; only a request for a lock and a sleep may take time. -/
namespace VersionedLedger

inductive Call
  | lookup (id : RecordId)
  | begin
  | checkFault (operation : String)
  /-- Asks for a lock with a bounded wait, the store's own bound if none is given. A request may
  insist that the record exists. -/
  | acquire (owner : TxnId) (id : RecordId) (timeout : Option Duration) (existing : Bool)
  | release (owner : TxnId) (id : RecordId)
  | releaseAll (owner : TxnId) (ids : List RecordId)
  | install (id : RecordId) (expected : Version) (balance : Amount)
  | apply (writes : WriteSet)
  | countAbort
  | setFaults (setting : FaultSetting)
  | circuit (name : String) (config : CircuitConfig)
  | admitCall (h : CircuitHandle)
  | recordCall (h : CircuitHandle) (p : Permit) (failed : Bool)
  | circuitState (h : CircuitHandle)
  | circuitMetrics (h : CircuitHandle)
  /-- Replies whether the sleep was completed; one that is not watched always is. -/
  | sleep (d : Duration) (watched : Bool)
  | now
  /-- A random number below `Backoff.drawLimit`. -/
  | draw
  | isCancelled
  | cancel
  | report (e : Event)
  | tally (s : RetrySummary)
  | countDeadlock (c : DeadlockCount)

namespace Call

@[reducible] def Reply : Call → Type
  | lookup _ => Option Record
  | begin => TxnId
  | checkFault _ => Except Error Unit
  | acquire .. => Outcome Unit
  | install .. => Outcome Record
  | apply _ => Except Error Unit
  | circuit .. => CircuitHandle
  | admitCall _ => Except Error Permit
  | circuitState _ => CircuitState
  | circuitMetrics _ => CircuitMetrics
  | sleep .. | isCancelled => Bool
  | now => Time
  | draw => Nat
  | release .. | releaseAll .. | countAbort | setFaults _ | recordCall .. | cancel | report _
  | tally _ | countDeadlock _ => Unit

end Call

inductive Program (α : Type) : Type
  | done (a : α)
  | call (c : Call) (next : c.Reply → Program α)

namespace Program

variable {α β : Type}

def bind : Program α → (α → Program β) → Program β
  | done a, f => f a
  | call c next, f => call c fun r => (next r).bind f

instance : Monad Program where
  pure := done
  bind := bind

@[simp] theorem bind_done (p : Program α) : p.bind done = p := by
  induction p with
  | done _ => rfl
  | call c next ih => simp [bind, ih]

theorem bind_assoc {γ : Type} (p : Program α) (f : α → Program β) (g : β → Program γ) :
    (p.bind f).bind g = p.bind fun a => (f a).bind g := by
  induction p with
  | done _ => rfl
  | call c next ih => simp [bind, ih]

instance : LawfulMonad Program := .mk' Program
  bind_done
  (fun _ _ => rfl)
  bind_assoc

def perform (c : Call) : Program c.Reply := call c done

def runWith {σ : Type} (answer : (c : Call) → σ → c.Reply × σ) : Program α → σ → α × σ
  | done a, s => (a, s)
  | call c next, s =>
    let (reply, s) := answer c s
    (next reply).runWith answer s

theorem runWith_bind {σ : Type} (answer : (c : Call) → σ → c.Reply × σ) (p : Program α)
    (f : α → Program β) (s : σ) :
    (p.bind f).runWith answer s =
      (f (p.runWith answer s).1).runWith answer (p.runWith answer s).2 := by
  induction p generalizing s with
  | done _ => rfl
  | call c next ih => exact ih (answer c s).1 (answer c s).2

end Program

end VersionedLedger

import VersionedLedger.Circuit.Window
import VersionedLedger.Config.Circuit
import VersionedLedger.Event

/-! A circuit breaker. Closed, it records outcomes until a rate reaches its threshold; opened, it
refuses calls until its wait is over; half open, it admits a few probes that close or reopen it.
Each change of state starts a new generation, and outcomes of earlier generations are ignored. -/
namespace VersionedLedger

structure Permit where
  generation : Nat
  started : Time
  deriving DecidableEq, Repr

structure Breaker where
  name : String
  config : CircuitConfig
  state : CircuitState := .closed
  window : CircuitWindow
  openedAt : Option Time := none
  generation : Nat := 0
  probesAdmitted : Nat := 0
  probesSucceeded : Nat := 0
  /-- Calls refused since the last reset. -/
  notPermitted : Nat := 0
  transitions : Nat := 0

/-- What a breaker shows of itself; no rates before enough outcomes are held. -/
structure CircuitMetrics where
  name : String
  state : CircuitState
  failureRate : Option Float
  slowCallRate : Option Float
  buffered : Nat
  successful : Nat
  failed : Nat
  slow : Nat
  notPermitted : Nat
  transitions : Nat

namespace Breaker

def create (name : String) (config : CircuitConfig) : Breaker where
  name
  config
  window := .ofCapacity config.slidingWindowSize

def transition (b : Breaker) (target : CircuitState) (now : Time) : Breaker × List Event :=
  let next : Breaker :=
    { b with
      state := target
      generation := b.generation + 1
      probesAdmitted := 0
      probesSucceeded := 0
      openedAt := match target with
        | .opened => some now
        | .closed => none
        | .halfOpen => b.openedAt
      window := if target = .closed then b.window.clear else b.window
      transitions := b.transitions + if b.state = target then 0 else 1 }
  (next, if b.state = target then [] else [.transition b.name b.state target])

def permit (b : Breaker) (now : Time) : Permit := ⟨b.generation, now⟩

def readyToProbe (b : Breaker) (now : Time) : Bool :=
  b.state = .opened &&
    match b.openedAt with
    | some start => start + b.config.openFor ≤ now
    | none => true

def admitCall (b : Breaker) (now : Time) : Except Error Permit × Breaker × List Event :=
  let refused : Except Error Permit × Breaker × List Event :=
    (.error (.circuitOpen b.name b.state), { b with notPermitted := b.notPermitted + 1 },
      [.call b.name .notPermitted])
  match b.state with
  | .closed => (.ok (b.permit now), b, [])
  | .halfOpen =>
    if b.probesAdmitted < b.config.permittedProbes then
      (.ok (b.permit now), { b with probesAdmitted := b.probesAdmitted + 1 }, [])
    else refused
  | .opened => refused

def tryAcquire (b : Breaker) (now : Time) : Except Error Permit × Breaker × List Event :=
  if b.readyToProbe now then
    let (b, moved) := b.transition .halfOpen now
    let (answer, b, events) := b.admitCall now
    (answer, b, moved ++ events)
  else b.admitCall now

def shouldOpen (b : Breaker) : Bool :=
  b.config.minimumCalls ≤ b.window.length &&
    (b.config.failureRateThreshold ≤ b.window.failureRate ||
      b.config.slowCallRateThreshold ≤ b.window.slowRate)

def absorb (b : Breaker) (outcome : CallOutcome) (now : Time) : Breaker × List Event :=
  match b.state with
  | .closed =>
    let b := { b with window := b.window.record outcome }
    if b.shouldOpen then b.transition .opened now else (b, [])
  | .halfOpen =>
    if outcome = .failure then b.transition .opened now
    else
      let b := { b with probesSucceeded := b.probesSucceeded + 1 }
      if b.config.permittedProbes ≤ b.probesSucceeded then b.transition .closed now else (b, [])
  | .opened => (b, [])

def kindOf : CallOutcome → CallKind
  | .success => .success
  | .failure => .failure
  | .slow => .slow

/-- Reports how a call ended. Any report is announced; only one of the current generation moves
the breaker. -/
def record (b : Breaker) (p : Permit) (failed : Bool) (now : Time) : Breaker × List Event :=
  let outcome := CallOutcome.classify failed (now - p.started) b.config.slowAfter
  let announced := Event.call b.name (kindOf outcome)
  if p.generation = b.generation then
    let (b, events) := b.absorb outcome now
    (b, announced :: events)
  else (b, [announced])

def force (b : Breaker) (target : CircuitState) (now : Time) : Breaker × List Event :=
  b.transition target now

def reset (b : Breaker) (now : Time) : Breaker × List Event :=
  let (b, events) := b.transition .closed now
  ({ b with notPermitted := 0, transitions := 0 }, events)

def metrics (b : Breaker) : CircuitMetrics :=
  let rated (rate : Float) := if b.config.minimumCalls ≤ b.window.length then some rate else none
  { name := b.name
    state := b.state
    failureRate := rated b.window.failureRate
    slowCallRate := rated b.window.slowRate
    buffered := b.window.length
    successful := b.window.successes
    failed := b.window.failures
    slow := b.window.slow
    notPermitted := b.notPermitted
    transitions := b.transitions }

end Breaker

end VersionedLedger

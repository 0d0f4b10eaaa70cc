import VersionedLedger.Time

/-! The outcomes of the most recent calls, oldest first, with running counts of failures and slow
calls from which the rates are taken. -/
namespace VersionedLedger

inductive CallOutcome
  | success
  | failure
  | slow
  deriving DecidableEq, Repr

namespace CallOutcome

def classify (failed : Bool) (elapsed slowAfter : Duration) : CallOutcome :=
  if failed then failure else if slowAfter < elapsed then slow else success

end CallOutcome

structure CircuitWindow where
  capacity : Nat
  outcomes : List CallOutcome := []
  failures : Nat := 0
  slow : Nat := 0
  deriving DecidableEq, Repr

namespace CircuitWindow

/-- An empty window; one of capacity 0 holds one outcome all the same. Room is set aside for all outcomes at once, so a
capacity is below 2 ^ 63. -/
def ofCapacity (capacity : Nat) : CircuitWindow := { capacity := max capacity 1 }

def count (w : CircuitWindow) (outcome : CallOutcome) : CircuitWindow :=
  match outcome with
  | .failure => { w with failures := w.failures + 1 }
  | .slow => { w with slow := w.slow + 1 }
  | .success => w

def discount (w : CircuitWindow) (outcome : CallOutcome) : CircuitWindow :=
  match outcome with
  | .failure => { w with failures := w.failures - 1 }
  | .slow => { w with slow := w.slow - 1 }
  | .success => w

def makeRoom (w : CircuitWindow) : CircuitWindow :=
  match w.outcomes with
  | oldest :: rest =>
    if w.outcomes.length = w.capacity then { w with outcomes := rest }.discount oldest else w
  | [] => w

def record (w : CircuitWindow) (outcome : CallOutcome) : CircuitWindow :=
  let w := w.makeRoom
  { w with outcomes := w.outcomes ++ [outcome] }.count outcome

def clear (w : CircuitWindow) : CircuitWindow := { capacity := w.capacity }

def length (w : CircuitWindow) : Nat := w.outcomes.length

def successes (w : CircuitWindow) : Nat := w.length - w.failures - w.slow

def percent (w : CircuitWindow) (count : Nat) : Float :=
  if w.outcomes.isEmpty then 0.0
  else count.toUInt64.toFloat * 100.0 / w.length.toUInt64.toFloat

def failureRate (w : CircuitWindow) : Float := w.percent w.failures

def slowRate (w : CircuitWindow) : Float := w.percent w.slow

end CircuitWindow

end VersionedLedger

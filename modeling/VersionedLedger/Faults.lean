import VersionedLedger.Failure
import VersionedLedger.Time

/-! Failures injected at write boundaries. A check takes the oldest scripted outcome if there is
one, else uses up a counter of due failures, else fails at random at the configured rate. -/
namespace VersionedLedger

structure Faults where
  script : List Bool := []
  failNext : Nat := 0
  /-- Failures among a million checks. -/
  rate : Nat := 0
  latency : Duration := 0
  injected : Nat := 0

/-- A change to the injector; nothing but a check moves the count of failures. -/
inductive FaultSetting
  | failNext (n : Nat)
  | script (outcomes : List Bool)
  | rate (probability : Float)
  | latency (d : Duration)
  | clear

namespace Faults

def million : Nat := 1000000

/-- Parts per million, held between none and all; what is no number counts as none. -/
def perMillion (probability : Float) : Nat :=
  if probability ≤ 0.0 then 0
  else if 1.0 ≤ probability then million
  else (probability * 1000000.0).toUInt64.toNat

def set (f : Faults) : FaultSetting → Faults
  | .failNext n => { f with failNext := n }
  | .script outcomes => { f with script := f.script ++ outcomes }
  | .rate probability => { f with rate := perMillion probability }
  | .latency d => { f with latency := d / 1000 * 1000 }
  | .clear => { injected := f.injected }

/-- Whether the next check fails; `draw` is a random number below a million. -/
def due (f : Faults) (draw : Nat) : Bool × Faults :=
  match f.script with
  | outcome :: rest => (outcome, { f with script := rest })
  | [] =>
    if f.failNext > 0 then (true, { f with failNext := f.failNext - 1 })
    else (draw < f.rate, f)

def check (f : Faults) (draw : Nat) (operation : String) : Except Error Unit × Faults :=
  let (failed, f) := f.due draw
  if failed then
    (.error (.unavailable s!"injected fault during {operation}"),
      { f with injected := f.injected + 1 })
  else (.ok (), f)

end Faults

end VersionedLedger

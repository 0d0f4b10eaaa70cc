import Std.Data.TreeMap
import VersionedLedger.Circuit.Breaker

/-! Breakers by operation name. The first use of a name creates its breaker and every later use
finds the same one; a handle keeps its breaker even after the name is removed. -/
namespace VersionedLedger

/-- Stands for one breaker, for as long as anybody wants it. -/
abbrev CircuitHandle := Nat

structure CircuitRegistry where
  defaults : CircuitConfig := {}
  /-- Whether its breakers report to the owner of the registry. -/
  observed : Bool := true
  names : Std.TreeMap String CircuitHandle := ∅
  breakers : List Breaker := []

namespace CircuitRegistry

def breaker (r : CircuitRegistry) (h : CircuitHandle) : Breaker :=
  (r.breakers[h]?).getD (.create "" r.defaults)

def find? (r : CircuitRegistry) (name : String) : Option CircuitHandle := r.names[name]?

def get? (r : CircuitRegistry) (name : String) : Option Breaker := (r.find? name).map r.breaker

def insertIfAbsent (r : CircuitRegistry) (name : String) (config : CircuitConfig) :
    (CircuitHandle × Bool) × CircuitRegistry :=
  match r.find? name with
  | some h => ((h, false), r)
  | none =>
    let h := r.breakers.length
    ((h, true), { r with
      names := r.names.insert name h
      breakers := r.breakers ++ [.create name config] })

/-- The breaker of a name, created with this configuration on first use: a look-up and then an
insertion that yields to an earlier one. -/
def breakerWith (r : CircuitRegistry) (name : String) (config : CircuitConfig) :
    (CircuitHandle × Bool) × CircuitRegistry :=
  match r.find? name with
  | some h => ((h, false), r)
  | none => r.insertIfAbsent name config

def remove (r : CircuitRegistry) (name : String) : Option Breaker × CircuitRegistry :=
  (r.get? name, { r with names := r.names.erase name })

def set (r : CircuitRegistry) (h : CircuitHandle) (b : Breaker) : CircuitRegistry :=
  { r with breakers := r.breakers.set h b }

/-- Registered names in ascending order of their bytes. -/
def sortedNames (r : CircuitRegistry) : List String := r.names.keys

def allMetrics (r : CircuitRegistry) : List CircuitMetrics :=
  r.sortedNames.filterMap fun name => (r.get? name).map Breaker.metrics

end CircuitRegistry

end VersionedLedger

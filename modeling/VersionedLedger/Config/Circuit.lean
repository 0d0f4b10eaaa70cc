import VersionedLedger.Decimal.Layout
import VersionedLedger.Failure
import VersionedLedger.Time

/-! When a circuit opens, how long it stays open, and how many probes close it again. Rates are
percentages. -/
namespace VersionedLedger

structure CircuitConfig where
  failureRateThreshold : Float := 50.0
  slowCallRateThreshold : Float := 50.0
  /-- Milliseconds above which a successful call counts as slow. -/
  slowCallDuration : Nat := 2000
  /-- Outcomes needed before the rates are looked at. -/
  minimumCalls : Nat := 5
  slidingWindowSize : Nat := 10
  /-- Milliseconds an opened circuit waits for its first probe. -/
  waitDuration : Nat := 10000
  permittedProbes : Nat := 3

namespace CircuitConfig

def slowAfter (c : CircuitConfig) : Duration := .ofMillis c.slowCallDuration

def openFor (c : CircuitConfig) : Duration := .ofMillis c.waitDuration

def validateRate (name : String) (percent : Float) : Except Error Unit :=
  if 0.0 < percent && percent ≤ 100.0 then .ok ()
  else .error (.config
    s!"circuit.{name} must be within (0, 100], got {Decimal.plain.text percent}")

def validate (c : CircuitConfig) : Except Error Unit := do
  validateRate "failure_rate_threshold" c.failureRateThreshold
  validateRate "slow_call_rate_threshold" c.slowCallRateThreshold
  if c.slidingWindowSize = 0 || c.minimumCalls = 0 then
    throw (.config "circuit.sliding_window_size and circuit.minimum_calls must be at least 1")
  if c.slidingWindowSize < c.minimumCalls then
    throw (.config (s!"circuit.minimum_calls ({c.minimumCalls}) exceeds " ++
      s!"circuit.sliding_window_size ({c.slidingWindowSize})"))
  if c.permittedProbes = 0 then
    throw (.config "circuit.permitted_probe_calls must be at least 1")

end CircuitConfig

end VersionedLedger

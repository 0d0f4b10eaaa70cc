import VersionedLedger.Decimal.Layout
import VersionedLedger.Failure
import VersionedLedger.Time

/-! How often an operation is tried and how long to wait in between. The deterministic delay grows
by a constant factor up to a ceiling; jitter is added elsewhere. -/
namespace VersionedLedger

inductive Jitter
  | none
  /-- Up to `factor` times the delay is added at random. -/
  | proportional (factor : Float)

structure RetryConfig where
  /-- Attempts in all, the first one included. -/
  maxAttempts : Nat := 5
  /-- Milliseconds before the first retry. -/
  baseDelay : Nat := 100
  multiplier : Float := 2.0
  /-- Milliseconds that no delay exceeds. -/
  maxDelay : Nat := 5000
  jitter : Jitter := .none

namespace RetryConfig

def noRetry : RetryConfig := { maxAttempts := 1 }

/-- `result * base ^ n` by repeated squaring, in the order that fixes every rounding. -/
def powerFrom (result base : Float) (n : Nat) : Float :=
  let next := if n % 2 = 1 then result * base else result
  if h : n / 2 = 0 then next else powerFrom next (base * base) (n / 2)
termination_by n
decreasing_by omega

def power (base : Float) (n : Nat) : Float := powerFrom 1.0 base n

def ofWhole (milliseconds : Nat) : Float := milliseconds.toUInt64.toFloat

def maxExponent : Nat := Int32.maxValue.toInt.toNat

/-- The wait in milliseconds after the failed attempt with this index, counted from 0. A product
that is no finite number stands at the ceiling; whole milliseconds are kept, never below 0. -/
def delayMillis (c : RetryConfig) (attempt : Nat) : Nat :=
  let raw := ofWhole c.baseDelay * power c.multiplier (min attempt maxExponent)
  let ceiling := ofWhole c.maxDelay
  (if raw.isFinite && raw < ceiling then raw else ceiling).toUInt64.toNat

def delayFor (c : RetryConfig) (attempt : Nat) : Duration := .ofMillis (c.delayMillis attempt)

def validate (c : RetryConfig) : Except Error Unit := do
  if c.maxAttempts = 0 then
    throw (.config "retry.max_attempts must be at least 1")
  if c.multiplier.isNaN || c.multiplier < 1.0 then
    throw (.config s!"retry.multiplier must be >= 1.0, got {Decimal.plain.text c.multiplier}")
  if c.maxDelay < c.baseDelay then
    throw (.config
      s!"retry.max_delay_ms ({c.maxDelay}) is below retry.base_delay_ms ({c.baseDelay})")
  if let .proportional factor := c.jitter then
    unless 0.0 ≤ factor && factor ≤ 1.0 do
      throw (.config
        s!"retry.jitter factor must be within [0, 1], got {Decimal.plain.text factor}")

end RetryConfig

end VersionedLedger

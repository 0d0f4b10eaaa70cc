import VersionedLedger.Procedure
import VersionedLedger.Retry.Backoff
import VersionedLedger.Text.Inspect
import VersionedLedger.Config.Inspect

/-! Repeating an operation until it succeeds, fails for good, or runs out of attempts. Every attempt
is reported, and every loop that comes to an end of its own is reported once more as a whole. A
crash of the operation ends the loop at once and unreported. -/
namespace VersionedLedger

open Procedure

structure RetryOutcome (α : Type) where
  value : α
  attempts : Nat
  fallbackUsed : Bool
  elapsed : Duration
  totalDelay : Duration

inductive RetryError
  | fatal (attempts : Nat) (e : Error)
  | exhausted (attempts : Nat) (fallbackUsed : Bool) (last : Error)
  | cancelled (attempts : Nat) (last : Option Error)
  deriving DecidableEq, Repr

namespace RetryOutcome

def retries {α : Type} (o : RetryOutcome α) : Nat := o.attempts - 1

end RetryOutcome

namespace RetryError

def attempts : RetryError → Nat
  | fatal n _ | exhausted n _ _ | cancelled n _ => n

def retries (e : RetryError) : Nat := e.attempts - 1

def last? : RetryError → Option Error
  | fatal _ e | exhausted _ _ e => some e
  | cancelled _ last => last

def isExhausted : RetryError → Bool
  | exhausted .. => true
  | _ => false

def isFatal : RetryError → Bool
  | fatal .. => true
  | _ => false

def isCancelled : RetryError → Bool
  | cancelled .. => true
  | _ => false

def message : RetryError → String
  | fatal n e => s!"fatal error on attempt {n}: {e.message}"
  | exhausted n _ last => s!"gave up after {n} attempts: {last.message}"
  | cancelled n _ => s!"cancelled after {n} attempts"

def toError : RetryError → Error
  | fatal _ e => e
  | exhausted n fallbackUsed last => .attemptsExhausted n fallbackUsed last
  | cancelled n _ => .cancelled n

end RetryError

structure RetryPolicy where
  config : RetryConfig := {}
  operation : String := "operation"
  /-- Whether attempts and loops are reported. -/
  reported : Bool := true
  /-- Whether finished loops go into the ledger's totals. -/
  counted : Bool := false

structure RetryOptions (σ α : Type) where
  classify : Error → Classification := Error.classification
  /-- Tried once when all attempts are used up, with the last error. -/
  fallback : Option (Error → Procedure σ α) := none
  watched : Bool := false

structure RetryProgress where
  started : Time
  attempts : Nat := 0
  totalDelay : Duration := 0
  delayBefore : Duration := 0

namespace RetryPolicy

variable {σ α : Type}

def maxAttempts (p : RetryPolicy) : Nat := max p.config.maxAttempts 1

def inspect (p : RetryPolicy) : Text.Inspected := .record "RetryPolicy"
  [("operation", .quoted p.operation), ("config", p.config.inspect)]

def report (p : RetryPolicy) (e : Event) : Procedure σ Unit := do
  if p.reported then perform (.report e)

def reportAttempt (p : RetryPolicy) (progress : RetryProgress) (outcome : AttemptOutcome) :
    Procedure σ Unit :=
  p.report (.attempt p.operation ⟨progress.attempts - 1, progress.delayBefore, outcome⟩)

def close (p : RetryPolicy) (progress : RetryProgress) (succeeded fallbackUsed : Bool) :
    Procedure σ Unit := do
  let summary : RetrySummary := ⟨progress.attempts, progress.totalDelay, succeeded, fallbackUsed⟩
  p.report (.retry p.operation summary)
  if p.counted then perform (.tally summary)

def succeed (p : RetryPolicy) (progress : RetryProgress) (fallbackUsed : Bool) (value : α) :
    Procedure σ (Except RetryError (RetryOutcome α)) := do
  p.close progress true fallbackUsed
  let now ← perform .now
  pure (.ok
    { value, attempts := progress.attempts, fallbackUsed
      elapsed := now - progress.started, totalDelay := progress.totalDelay })

def giveUp (p : RetryPolicy) (progress : RetryProgress) (e : RetryError) (fallbackUsed : Bool) :
    Procedure σ (Except RetryError (RetryOutcome α)) := do
  p.close progress false fallbackUsed
  pure (.error e)

def exhaust (p : RetryPolicy) (o : RetryOptions σ α) (progress : RetryProgress) (last : Error) :
    Procedure σ (Except RetryError (RetryOutcome α)) := do
  match o.fallback with
  | none => p.giveUp progress (.exhausted progress.attempts false last) false
  | some fallback =>
    match ← outcome (fallback last) with
    | .ok value => p.succeed progress true value
    | .error (.error e) => p.giveUp progress (.exhausted progress.attempts true e) true
    | .error (.crash c) => crash c

def nextDelay (c : RetryConfig) (attempt : Nat) : Program Duration := do
  pure (Backoff.delay c attempt (← Program.perform .draw))

def pause (o : RetryOptions σ α) (delay : Duration) : Procedure σ Bool := do
  if o.watched && (← perform .isCancelled) then pure false
  else perform (.sleep delay o.watched)

/-- Makes the next attempt, with `left` more to follow it. -/
def loop (p : RetryPolicy) (o : RetryOptions σ α) (operation : Procedure σ α) (left : Nat)
    (progress : RetryProgress) : Procedure σ (Except RetryError (RetryOutcome α)) := do
  if o.watched && (← perform .isCancelled) then
    p.giveUp progress (.cancelled progress.attempts none) false
  else
    let answer ← operation.outcome
    let progress := { progress with attempts := progress.attempts + 1 }
    match answer with
    | .ok value =>
      p.reportAttempt progress .success
      p.succeed progress false value
    | .error (.crash c) => crash c
    | .error (.error e) =>
      match o.classify e with
      | .fatal =>
        p.reportAttempt progress .fatal
        p.giveUp progress (.fatal progress.attempts e) false
      | .retryable =>
        p.reportAttempt progress .retryable
        match left with
        | 0 => p.exhaust o progress e
        | left + 1 =>
          let delay ← nextDelay p.config (progress.attempts - 1)
          if ← pause o delay then
            p.loop o operation left
              { progress with totalDelay := progress.totalDelay + delay, delayBefore := delay }
          else p.giveUp progress (.cancelled progress.attempts (some e)) false

/-- Runs an operation under the policy. Only a crash is a failure of the procedure itself. -/
def run (p : RetryPolicy) (o : RetryOptions σ α) (operation : Procedure σ α) :
    Procedure σ (Except RetryError (RetryOutcome α)) := do
  p.loop o operation (p.maxAttempts - 1) { started := ← perform .now }

def attempt (p : RetryPolicy) (operation : Procedure σ α) : Procedure σ (RetryOutcome α) := do
  match ← p.run {} operation with
  | .ok o => pure o
  | .error e => fail e.toError

def call (p : RetryPolicy) (operation : Procedure σ α) : Procedure σ α := do
  pure (← p.attempt operation).value

end RetryPolicy

end VersionedLedger

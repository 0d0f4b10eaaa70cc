import VersionedLedger.Decimal.Fixed
import VersionedLedger.Document.Report

/-! Reports and errors as the command line prints them: lines for people, or JSON. -/
namespace VersionedLedger.Command

def padRight (width : Nat) (s : String) : String :=
  s ++ String.ofList (List.replicate (width - s.length) ' ')

def yesNo (b : Bool) : String := if b then "yes" else "no"

def tenths (x : Float) : String := Decimal.fixed 1 x

def hundredths (x : Float) : String := Decimal.fixed 2 x

def contentionLines (r : ContentionReport) : List String :=
  [s!"optimistic contention: {r.operations} operations in {r.duration}ms",
   s!"  succeeded        {r.successes}",
   s!"  failed           {r.failures}",
   s!"  retries          {r.retries} ({hundredths r.averageRetries} per op)",
   s!"  conflicts        {r.conflicts} ({hundredths r.conflictRate} per op)",
   s!"  balance          {r.initialBalance} -> {r.finalBalance} (expected {r.expectedBalance})",
   s!"  version          {r.initialVersion} -> {r.finalVersion}",
   s!"  balance correct  {yesNo r.balanceCorrect}"]

def throughputLine (r : LockContentionReport) : String :=
  s!"  throughput       {tenths r.operationsPerSecond} ops/s"

def lockContentionLines (r : LockContentionReport) : List String :=
  [s!"pessimistic contention: {r.operations} operations in {r.duration}ms",
   s!"  succeeded        {r.successes}",
   s!"  failed           {r.failures}",
   s!"  lock wait        total {r.totalLockWait}ms, avg {tenths r.averageLockWait}ms, " ++
     s!"max {r.maxLockWait}ms",
   throughputLine r,
   s!"  balance          {r.initialBalance} -> {r.finalBalance} (expected {r.expectedBalance})",
   s!"  balance correct  {yesNo r.balanceCorrect}"]

def deadlockLines (ordered : Bool) (r : DeadlockReport) : List String :=
  let order := if ordered then "ascending id" else "request"
  [s!"bidirectional transfers ({order} lock order): {r.transfers} transfers in {r.duration}ms",
   s!"  succeeded        {r.successes}",
   s!"  failed           {r.failures}",
   s!"  deadlocks        {r.deadlocksDetected}",
   s!"  retries          {r.retries}",
   s!"  total balance    {r.totalBefore} -> {r.totalAfter}",
   s!"  conserved        {yesNo r.balanceConserved}"]

def retryLines (r : RetryReport) (m : RetrySnapshot) : List String :=
  let error := match r.error with
    | some e => ["  error            " ++ e]
    | none => []
  [s!"retried transfer with {r.injectedFailures} injected failures",
   s!"  succeeded        {yesNo r.succeeded}",
   s!"  attempts         {r.attempts}",
   s!"  duration         {r.duration}ms"] ++ error ++
  [s!"  metrics          {m.totals.attempts} attempts, {tenths m.successRate}% success, " ++
     s!"{hundredths m.averageAttempts} attempts/op"]

def rate : Option Float → String
  | some percent => tenths percent ++ "%"
  | none => "n/a (below minimum calls)"

def metricsLines (m : CircuitMetrics) : List String :=
  [s!"  state            {m.state.name}",
   s!"  window           {m.buffered} calls: {m.successful} ok, {m.failed} failed, {m.slow} slow",
   s!"  failure rate     {rate m.failureRate}",
   s!"  slow call rate   {rate m.slowCallRate}",
   s!"  not permitted    {m.notPermitted}",
   s!"  transitions      {m.transitions}"]

def callLine (c : BreakerCall) : String :=
  let letter := if c.injectedFailure then "F" else "S"
  let outcome := if c.rejected then "rejected" else if c.succeeded then "ok" else "failed"
  s!"  #{padRight 3 (toString c.index)} {letter}  {padRight 8 outcome} " ++
    s!"{c.stateBefore.name} -> {c.stateAfter.name}"

def breakerLines (run : BreakerReport) (recovery : Option BreakerReport) : List String :=
  let after := match recovery with
    | some r => "after waiting out the open state:" :: r.calls.map callLine
    | none => []
  [s!"circuit breaker '{run.metrics.name}'"] ++ run.calls.map callLine ++ after ++
    metricsLines (recovery.getD run).metrics

def lines : ScenarioReport → List String
  | .optimistic r => contentionLines r
  | .pessimistic r => lockContentionLines r
  | .deadlock ordered r => deadlockLines ordered r
  | .retry r metrics => retryLines r metrics
  | .breaker run recovery => breakerLines run recovery

def formatReport (r : ScenarioReport) (json : Bool) : String :=
  if json then r.document.pretty 0 else "\n".intercalate (lines r)

def formatError (message : String) (json : Bool) : String :=
  if json then "\x7b" ++ Text.Json.quote "error" ++ ":" ++ Text.Json.quote message ++ "\x7d"
  else "(error) " ++ message

end VersionedLedger.Command

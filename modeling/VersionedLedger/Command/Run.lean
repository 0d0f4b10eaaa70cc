import VersionedLedger.Command.Arguments
import VersionedLedger.Command.Summary
import VersionedLedger.Config.Reading
import VersionedLedger.Scenario.Contention
import VersionedLedger.Scenario.Flaky

/-! One run of the command line: the settings are read first, then the scenario's own options, and
the scenario is run on a ledger of its own. -/
namespace VersionedLedger.Command

inductive RunFailure
  | malformedConfig
  | message (text : String)
  | crash (c : Crash)

def ofFailure {α : Type} : Outcome α → Except RunFailure α
  | .ok a => .ok a
  | .error (.error e) => .error (.message e.message)
  | .error (.crash c) => .error (.crash c)

def runAlone {α : Type} (p : Procedure Unit α) (s : Ledger) : Outcome α × Ledger :=
  let ((answer, _), s) := s.run (p.start ())
  (answer, s)

def perform (config : LedgerConfig) (s : Ledger) : Request → Outcome ScenarioReport
  | .optimistic id amount _ threads =>
    (Scenario.optimisticContention id amount threads config.retry s).1.map .optimistic
  | .pessimistic id amount _ threads hold =>
    (Scenario.pessimisticContention config id amount threads hold s).1.map .pessimistic
  | .deadlock source target amount _ rounds pause ordered =>
    let transfers := if ordered then Scenario.orderedTransfers else Scenario.bidirectionalTransfers
    (transfers config source target amount rounds pause s).1.map (.deadlock ordered)
  | .retry source target amount _ failures =>
    let (answer, s) :=
      runAlone (Scenario.flakyRetries config ⟨source, target, amount⟩ failures config.retry) s
    answer.map fun r => .retry r s.retries.snapshot
  | .breaker source target amount _ pattern recover =>
    let (answer, _) := runAlone
      (Scenario.breakerRun config "transfer" ⟨source, target, amount⟩ pattern recover) s
    answer.map fun (run, recovery) => .breaker run recovery

/-- Runs what the arguments ask for. `content` gives the content of a file, or says why not. -/
def execute (a : Arguments) (content : String → Except String ByteArray) :
    Except RunFailure ScenarioReport := do
  let config ← match a.config with
    | none => pure {}
    | some path =>
      match LedgerConfig.ofFile path (content path) with
      | .ok config => pure config
      | .error fault =>
        match fault.error? with
        | some e => throw (.message e.message)
        | none => throw .malformedConfig
  let request ← match a.request with
    | .ok request => pure request
    | .error text => throw (.message text)
  match Ledger.create config request.balances false false with
  | .error e => throw (.message s!"Failed to create ledger: {e.message}")
  | .ok s => ofFailure (perform config s request)

end VersionedLedger.Command

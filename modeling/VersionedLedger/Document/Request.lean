import VersionedLedger.Command.Arguments
import VersionedLedger.Document.Ledger

/-! Requests of the command line as JSON documents. -/
namespace VersionedLedger.Command.Request

open Text Text.Json

/-- The settings of a request in the order in which it has them, durations in milliseconds. -/
def settings : Request → List Json
  | optimistic id amount balance threads =>
    [natural id, Amount.document amount, Amount.document balance, natural threads]
  | pessimistic id amount balance threads hold =>
    [natural id, Amount.document amount, Amount.document balance, natural threads,
     natural hold.toMillis]
  | deadlock source target amount balance rounds pause ordered =>
    [natural source, natural target, Amount.document amount, Amount.document balance,
     natural rounds, natural pause.toMillis, flag ordered]
  | retry source target amount balance failures =>
    [natural source, natural target, Amount.document amount, Amount.document balance,
     natural failures]
  | breaker source target amount balance pattern recover =>
    [natural source, natural target, Amount.document amount, Amount.document balance,
     list (pattern.map flag), flag recover]

end VersionedLedger.Command.Request

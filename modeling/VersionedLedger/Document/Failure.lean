import VersionedLedger.Failure
import VersionedLedger.Text.Json

/-! Errors as JSON documents, with everything that a caller may ask about them. -/
namespace VersionedLedger.Error

open Text Text.Json

def traits (e : Error) : List String :=
  let answers := [("retryable", decide (e.classification = .retryable)),
    ("conflict", e.isConflict), ("deadlock", e.isDeadlock), ("lock_timeout", e.isLockTimeout),
    ("circuit_open", e.isCircuitOpen), ("validation", e.isValidation),
    ("not_found", e.isNotFound), ("exhausted", e.isExhausted)]
  (answers.filter (·.2)).map (·.1)

def document (e : Error) : Json := members
  [("kind", text e.kind), ("display", text e.message), ("flags", list (e.traits.map text)),
   ("sources", list (e.sources.map fun s => text s.message)),
   ("root_kind", text e.rootCause.kind), ("root", text e.rootCause.message)]

end VersionedLedger.Error

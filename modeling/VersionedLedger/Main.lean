import VersionedLedger.Command.Run

/-! The scenario runner as a program: it reads the settings file, prints the report or the error and
sets the exit code. -/
namespace VersionedLedger.Command

def usageText : String :=
  "Usage: versioned-ledger [--json] [--config FILE] [-v] SCENARIO [OPTIONS]\n" ++
    "Scenarios: optimistic, pessimistic, deadlock, retry, breaker"

def usageMessage : UsageError → String
  | .valueValidation => "a value is not valid"
  | .unknownArgument => "unexpected argument"
  | .invalidSubcommand => "unrecognized scenario"
  | .invalidValue => "a value is required"
  | .tooManyValues => "an option takes no value"
  | .argumentConflict => "an option was given more than once"
  | .missingSubcommand => "a scenario is required"
  | .nothingGiven | .helpRequested | .versionRequested => usageText

def readFault : IO.Error → String
  | .noFileOrDirectory .. => "No such file or directory (os error 2)"
  | .permissionDenied .. => "Permission denied (os error 13)"
  | .inappropriateType .. => "Is a directory (os error 21)"
  | e => toString e

def readContent (path : String) : IO (Except String ByteArray) := do
  try
    pure (.ok (← IO.FS.readBinFile path))
  catch e => pure (.error (readFault e))

def reject (e : UsageError) : IO UInt32 := do
  match e with
  | .helpRequested =>
    IO.println usageText
    pure 0
  | .versionRequested =>
    IO.println "versioned-ledger 0.1.0"
    pure 0
  | e =>
    IO.eprintln ("error: " ++ usageMessage e)
    pure 2

def runWords (words : List String) : IO UInt32 := do
  match Arguments.parse words with
  | .error e => reject e
  | .ok a =>
    let content ← match a.config with
      | some path => readContent path
      | none => pure (.error "")
    match execute a fun _ => content with
    | .ok report =>
      IO.println (formatReport report a.json)
      pure 0
    | .error (.crash c) =>
      IO.eprintln c.message
      pure 101
    | .error .malformedConfig =>
      IO.eprintln (formatError "configuration error: not a settings file" a.json)
      pure 1
    | .error (.message text) =>
      IO.eprintln (formatError text a.json)
      pure 1

end VersionedLedger.Command

def main (words : List String) : IO UInt32 := VersionedLedger.Command.runWords words

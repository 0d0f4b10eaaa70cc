import VersionedLedger.Command.Option
import VersionedLedger.Scenario.Pattern
import VersionedLedger.Time
import VersionedLedger.Record

/-! The command line of the scenario runner: options that hold for every scenario, before or after
its name, and the options of the scenario itself. -/
namespace VersionedLedger.Command

inductive Request
  | optimistic (id : RecordId) (amount balance : Amount) (threads : Nat)
  | pessimistic (id : RecordId) (amount balance : Amount) (threads : Nat) (hold : Duration)
  | deadlock (source target : RecordId) (amount balance : Amount) (rounds : Nat)
      (pause : Duration) (ordered : Bool)
  | retry (source target : RecordId) (amount balance : Amount) (failures : Nat)
  | breaker (source target : RecordId) (amount balance : Amount) (pattern : List Bool)
      (recover : Bool)

namespace Request

def balances : Request → List (RecordId × Amount)
  | optimistic id _ balance _ | pessimistic id _ balance _ _ => [(id, balance)]
  | deadlock source target _ balance _ _ _ | retry source target _ balance _
  | breaker source target _ balance _ _ => [(source, balance), (target, balance)]

end Request

def unsignedMax : Int := UInt64.size - 1

def idOption (name : String) : OptionSpec := { name, kind := .number false 0 unsignedMax }

def countOption (name : String) : OptionSpec := { name, kind := .number false 1 unsignedMax }

def amountOption : OptionSpec :=
  { name := "amount", kind := .number true 1 Int64.maxValue.toInt }

def balanceOption : OptionSpec :=
  { name := "balance", kind := .number true Int64.minValue.toInt Int64.maxValue.toInt }

def commonOptions : List OptionSpec :=
  [{ name := "json", kind := .flag }, { name := "config", short := some 'c', kind := .text },
   { name := "verbose", short := some 'v', kind := .count },
   { name := "help", short := some 'h', kind := .help }]

def topOptions : List OptionSpec :=
  { name := "version", short := some 'V', kind := .version } :: commonOptions

def subcommands : List (String × List OptionSpec) :=
  let pair := [idOption "from", idOption "to", amountOption, balanceOption]
  [("optimistic", [idOption "id", amountOption, balanceOption, countOption "threads"]),
   ("pessimistic",
     [idOption "id", amountOption, balanceOption, countOption "threads", idOption "hold-ms"]),
   ("deadlock",
     pair ++ [countOption "rounds", idOption "pause-ms", { name := "ordered", kind := .flag }]),
   ("retry", pair ++ [{ name := "failures", kind := .number true 0 (UInt32.size - 1) }]),
   ("breaker",
     pair ++ [{ name := "pattern", kind := .text }, { name := "recover", kind := .flag }])]

/-- A word that is neither an option nor a value. After two hyphens not even a scenario is one. -/
def stray (names : List String) (dashed : Bool) (word : String) : UsageError :=
  if names.isEmpty || (dashed && names.contains word) then .unknownArgument
  else .invalidSubcommand

def scan (known : List OptionSpec) (names : List String) (dashed : Bool) :
    List String → Given → Except UsageError (Given × Option (String × List String))
  | [], g => .ok (g, none)
  | word :: rest, g =>
    if dashed then .error (stray names true word)
    else if !g.awaits && names.contains word then .ok (g, some (word, rest))
    else match word.toList with
      | ['-', '-'] => scan known names true rest g
      | '-' :: '-' :: name => do scan known names false rest (← g.long known name)
      | '-' :: c :: cs => do scan known names false rest (← g.letters known (c :: cs))
      | _ =>
        match g.pending with
        | some (o, none) => scan known names false rest { g with pending := some (o, some word) }
        | _ => .error (stray names false word)

structure Arguments where
  scenario : String
  options : Given
  json : Bool
  verbose : Nat
  config : Option String

namespace Arguments

def names : List String := subcommands.map (·.1) ++ ["help"]

/-- Of an option given both before and after the name of the scenario, the latter counts. -/
def common? (top own : Given) (name : String) : Option OptionValue :=
  own.value? name <|> top.value? name

def helpOn : List String → UsageError
  | [] => .helpRequested
  | [name] => if names.contains name then .helpRequested else .invalidSubcommand
  | _ => .invalidSubcommand

def parse (words : List String) : Except UsageError Arguments := do
  let (top, selected) ← scan topOptions names false words {}
  match selected with
  | none =>
    let top ← top.resolve
    throw (if top.options.isEmpty then .nothingGiven else .missingSubcommand)
  | some (name, rest) =>
    if name == "help" then throw (helpOn rest)
    let own := (subcommands.lookup name).getD []
    let (options, _) ← scan (own ++ commonOptions) [] false rest {}
    let options ← options.resolve
    let top ← top.resolve
    pure
      { scenario := name
        options
        json := (common? top options "json").isSome
        verbose := match common? top options "verbose" with
          | some (.times n) => n
          | _ => 0
        config := match common? top options "config" with
          | some (.text path) => some path
          | _ => none }

def number (a : Arguments) (name : String) (fallback : Int) : Int :=
  match a.options.value? name with
  | some (.number n) => n
  | _ => fallback

def natural (a : Arguments) (name : String) (fallback : Nat) : Nat :=
  (a.number name fallback).toNat

def amount (a : Arguments) (name : String) (fallback : Int) : Amount :=
  Int64.ofInt (a.number name fallback)

def flag (a : Arguments) (name : String) : Bool := (a.options.value? name).isSome

def millis (a : Arguments) (name : String) (fallback : Nat) : Duration :=
  .ofMillis (a.natural name fallback)

def pair (a : Arguments) : Except String (RecordId × RecordId) :=
  let source := a.natural "from" 1
  let target := a.natural "to" 2
  if source = target then .error "--from and --to must name different records"
  else .ok (source, target)

def request (a : Arguments) : Except String Request := do
  let balance := a.amount "balance" 100000
  let amount := a.amount "amount" 10
  match a.scenario with
  | "optimistic" => pure (.optimistic (a.natural "id" 1) amount balance (a.natural "threads" 10))
  | "pessimistic" =>
    pure (.pessimistic (a.natural "id" 1) amount balance (a.natural "threads" 10)
      (a.millis "hold-ms" 10))
  | "deadlock" =>
    let (source, target) ← a.pair
    pure (.deadlock source target amount balance (a.natural "rounds" 3) (a.millis "pause-ms" 10)
      (a.flag "ordered"))
  | "retry" =>
    let (source, target) ← a.pair
    pure (.retry source target amount balance (a.natural "failures" 2))
  | "breaker" =>
    let (source, target) ← a.pair
    let letters := match a.options.value? "pattern" with
      | some (.text s) => s
      | _ => "FFFSS"
    match Pattern.parse letters with
    | .ok pattern =>
      pure (.breaker source target (a.amount "amount" 1) balance pattern (a.flag "recover"))
    | .error e => throw e.message
  | other => throw s!"Unknown scenario: {other}"

end Arguments

end VersionedLedger.Command

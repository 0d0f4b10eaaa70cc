/-! Options of a command line and what they take: nothing, a text, or a whole number within bounds.
An option is given once unless it is counted, with its value attached or as the next word. -/
namespace VersionedLedger.Command

inductive OptionKind
  | flag
  | count
  | text
  /-- A minus sign is read only in a `signed` number. -/
  | number (signed : Bool) (least most : Int)
  | help
  | version
  deriving DecidableEq, Repr

structure OptionSpec where
  name : String
  short : Option Char := none
  kind : OptionKind
  deriving DecidableEq, Repr

namespace OptionSpec

def takesValue (o : OptionSpec) : Bool :=
  match o.kind with
  | .text | .number .. => true
  | _ => false

end OptionSpec

inductive OptionValue
  | set
  | times (n : Nat)
  | text (s : String)
  | number (n : Int)
  deriving DecidableEq, Repr

inductive UsageError
  | valueValidation
  | unknownArgument
  | invalidSubcommand
  | invalidValue
  | tooManyValues
  | argumentConflict
  | missingSubcommand
  | nothingGiven
  | helpRequested
  | versionRequested
  deriving DecidableEq, Repr

def allDigits (cs : List Char) : Bool := !cs.isEmpty && cs.all Char.isDigit

/-- Decimal digits after at most one sign. -/
def readWhole (signed : Bool) (s : String) : Option Int :=
  match s.toList with
  | '+' :: ds => if allDigits ds then (String.ofList ds).toInt? else none
  | '-' :: ds => if signed && allDigits ds then (String.ofList ds).toInt?.map (- ·) else none
  | ds => if allDigits ds then (String.ofList ds).toInt? else none

def OptionKind.read (s : String) : OptionKind → Except UsageError OptionValue
  | .number signed least most =>
    match readWhole signed s with
    | some n => if least ≤ n ∧ n ≤ most then .ok (.number n) else .error .valueValidation
    | none => .error .valueValidation
  | _ => .ok (.text s)

structure Given where
  options : List (String × OptionValue) := []
  pending : Option (OptionSpec × Option String) := none

namespace Given

def value? (g : Given) (name : String) : Option OptionValue := g.options.lookup name

def add (g : Given) (name : String) (v : OptionValue) : Given :=
  { g with options := (name, v) :: g.options.filter (·.1 != name) }

def accept (g : Given) (o : OptionSpec) (v : Option String) : Except UsageError Given := do
  match o.kind with
  | .help => throw .helpRequested
  | .version => throw .versionRequested
  | .flag =>
    if (g.value? o.name).isSome then throw .argumentConflict
    pure (g.add o.name .set)
  | .count =>
    let n := match g.value? o.name with
      | some (.times n) => n
      | _ => 0
    pure (g.add o.name (.times (min (n + 1) 255)))
  | _ =>
    let some s := v | throw .invalidValue
    if (g.value? o.name).isSome then throw .argumentConflict
    pure (g.add o.name (← o.kind.read s))

def resolve (g : Given) : Except UsageError Given :=
  match g.pending with
  | none => .ok g
  | some (o, v) => { g with pending := none }.accept o v

def awaits (g : Given) : Bool :=
  match g.pending with
  | some (_, none) => true
  | _ => false

def meet (g : Given) (o : OptionSpec) (attached : Option String) : Except UsageError Given := do
  let g ← g.resolve
  if o.takesValue && attached.isNone then pure { g with pending := some (o, none) }
  else g.accept o attached

def long (g : Given) (known : List OptionSpec) (word : List Char) : Except UsageError Given := do
  let name := String.ofList (word.takeWhile (· != '='))
  let attached := match word.dropWhile (· != '=') with
    | _ :: v => some (String.ofList v)
    | [] => none
  match known.find? (·.name == name) with
  | none => throw .unknownArgument
  | some o =>
    if attached.isSome && !o.takesValue then throw .tooManyValues
    g.meet o attached

/-- The letters after a single hyphen; one that takes a value takes all that follows. -/
def letters (g : Given) (known : List OptionSpec) : List Char → Except UsageError Given
  | [] => .ok g
  | c :: rest =>
    match known.find? (·.short == some c) with
    | none => .error .unknownArgument
    | some o =>
      if o.takesValue then
        g.meet o (match rest with
          | [] => none
          | '=' :: v => some (String.ofList v)
          | v => some (String.ofList v))
      else do (← g.meet o none).letters known rest

end Given

end VersionedLedger.Command

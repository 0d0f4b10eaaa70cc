/-! The three states of a circuit and their spellings. Reading is lenient in case and in the
separator, writing is not; the stored form is the written one. -/
namespace VersionedLedger

inductive CircuitState
  | closed
  | opened
  | halfOpen
  deriving DecidableEq, Repr

namespace CircuitState

def name : CircuitState → String
  | closed => "CLOSED"
  | opened => "OPEN"
  | halfOpen => "HALF_OPEN"

def ofName? (text : String) : Option CircuitState :=
  [closed, opened, halfOpen].find? (·.name == text)

/-- ASCII letters in upper case, every hyphen an underscore. -/
def normal (text : String) : String :=
  text.map fun c => if c == '-' then '_' else c.toUpper

/-- Reads any spelling that normalises to a name; `HALFOPEN` counts as one. On failure the
normalised text is given back. -/
def parse (text : String) : Except String CircuitState :=
  let plain := normal text
  if plain == "HALFOPEN" then .ok .halfOpen
  else match ofName? plain with
    | some state => .ok state
    | none => .error plain

theorem ofName?_name (s : CircuitState) : ofName? s.name = some s := by cases s <;> rfl

end CircuitState

end VersionedLedger

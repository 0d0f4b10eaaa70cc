/-! Reading text from left to right. A reader takes what it needs from the front and leaves the
rest, or refuses; of two alternatives the second is tried where the first refuses. -/
namespace VersionedLedger.Toml

abbrev Reader (α : Type) := StateT (List Char) Option α

namespace Reader

variable {α : Type}

def peek : Reader (Option Char) := do pure (← get).head?

def one (accept : Char → Bool) : Reader Char := fun input =>
  match input with
  | c :: rest => if accept c then some (c, rest) else none
  | [] => none

def char (c : Char) : Reader Unit := do let _ ← one (· == c)

def text (expected : String) : Reader Unit := fun input =>
  if expected.toList.isPrefixOf input then some ((), input.drop expected.length) else none

def run (accept : Char → Bool) : Reader (List Char) := fun input =>
  some (input.span accept)

def manyUpTo (p : Reader α) : Nat → Reader (List α)
  | 0 => pure []
  | limit + 1 => (do
    let a ← p
    pure (a :: (← manyUpTo p limit))) <|> pure []

/-- Takes as often as possible; every success has to take something. -/
def many (p : Reader α) : Reader (List α) := do manyUpTo p (← get).length

def maybe (p : Reader α) : Reader (Option α) := some <$> p <|> pure none

def exactly (accept : Char → Bool) : Nat → Reader (List Char)
  | 0 => pure []
  | n + 1 => do
    let c ← one accept
    pure (c :: (← exactly accept n))

end Reader

end VersionedLedger.Toml

import VersionedLedger.Failure
import VersionedLedger.Text.Blank

/-! Failure patterns: one letter for each call, F for a failure and S for a success. Commas and
blanks may stand anywhere. -/
namespace VersionedLedger.Pattern

/-- True for a failure, and the upper-case form of a character that is no letter of a pattern. -/
def ofChar (c : Char) : Except Char Bool :=
  match c.toUpper with
  | 'F' => .ok true
  | 'S' => .ok false
  | other => .error other

def isSeparator (c : Char) : Bool := Text.isBlank c || c == ','

def ofChars : List Char → Except Char (List Bool)
  | [] => .ok []
  | c :: rest => if isSeparator c then ofChars rest else do
    let failure ← ofChar c
    pure (failure :: (← ofChars rest))

def parse (text : String) : Except Error (List Bool) :=
  match ofChars text.toList with
  | .ok pattern => .ok pattern
  | .error c => .error (.validation s!"invalid pattern character '{c}', expected F or S")

def render (pattern : List Bool) : String :=
  String.ofList (pattern.map fun failure => if failure then 'F' else 'S')

end VersionedLedger.Pattern

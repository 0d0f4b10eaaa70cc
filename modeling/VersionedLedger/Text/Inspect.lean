import VersionedLedger.Decimal.Layout
import VersionedLedger.Text.Hex
import VersionedLedger.Text.Printable

/-! The form in which a value is shown to a developer: named fields in braces, text in quotes
with everything invisible escaped. -/
namespace VersionedLedger.Text

inductive Inspected
  | word (text : String)
  | quoted (text : String)
  | wrapped (name : String) (content : String)
  | record (name : String) (fields : List (String × Inspected))

namespace Inspected

def whole (n : Nat) : Inspected := word (toString n)

def real (x : Float) : Inspected := word (Decimal.inspected.text x)

def escape (c : Char) : String :=
  if c == '"' then "\\\""
  else if c == '\\' then "\\\\"
  else if c == '\n' then "\\n"
  else if c == '\r' then "\\r"
  else if c == '\t' then "\\t"
  else if c.toNat = 0 then "\\0"
  else if isPrintable c then c.toString
  else "\\u\x7b" ++ hex c.toNat ++ "\x7d"

mutual

def render : Inspected → String
  | word text => text
  | quoted text => "\"" ++ String.join (text.toList.map escape) ++ "\""
  | wrapped name content => name ++ "(" ++ content ++ ")"
  | record name fields => name ++ " \x7b " ++ ", ".intercalate (renderFields fields) ++ " \x7d"

def renderFields : List (String × Inspected) → List String
  | [] => []
  | field :: rest => renderField field :: renderFields rest

def renderField : String × Inspected → String
  | (name, value) => name ++ ": " ++ value.render

end

end Inspected

end VersionedLedger.Text

import VersionedLedger.Decimal.Layout
import VersionedLedger.Text.Hex

/-! JSON documents and their two written forms: on one line, and spread over lines with two
spaces for each level. Members keep the order they are given in. -/
namespace VersionedLedger.Text

inductive Json
  | null
  | flag (value : Bool)
  | whole (value : Int)
  | real (value : Float)
  | text (value : String)
  | list (items : List Json)
  | members (items : List (String × Json))

namespace Json

def escape (c : Char) : String :=
  if c == '"' then "\\\""
  else if c == '\\' then "\\\\"
  else if c == '\n' then "\\n"
  else if c == '\r' then "\\r"
  else if c == '\t' then "\\t"
  else if c.toNat = 8 then "\\b"
  else if c.toNat = 12 then "\\f"
  else if c.toNat < 32 then "\\u" ++ hexPadded 4 c.toNat
  else c.toString

def quote (s : String) : String := "\"" ++ String.join (s.toList.map escape) ++ "\""

def option {α : Type} (write : α → Json) : Option α → Json
  | some a => write a
  | none => null

def natural (n : Nat) : Json := whole n

def number (x : Float) : String := (Decimal.json.finite? x).getD "null"

def indent (depth : Nat) : String := "\n" ++ String.ofList (List.replicate (2 * depth) ' ')

/-- Items between brackets, each on a line of its own one level further in. -/
def block (depth : Nat) (left right : String) : List String → String
  | [] => left ++ right
  | lines => left ++ indent (depth + 1) ++ ("," ++ indent (depth + 1)).intercalate lines ++
      indent depth ++ right

mutual

def pretty (depth : Nat) : Json → String
  | null => "null"
  | flag value => toString value
  | whole value => toString value
  | real value => number value
  | text value => quote value
  | list items => block depth "[" "]" (prettyItems (depth + 1) items)
  | members items => block depth "\x7b" "\x7d" (prettyMembers (depth + 1) items)

def prettyItems (depth : Nat) : List Json → List String
  | [] => []
  | item :: rest => item.pretty depth :: prettyItems depth rest

def prettyMembers (depth : Nat) : List (String × Json) → List String
  | [] => []
  | member :: rest => prettyMember depth member :: prettyMembers depth rest

def prettyMember (depth : Nat) : String × Json → String
  | (name, item) => quote name ++ ": " ++ item.pretty depth

end

end Json

end VersionedLedger.Text

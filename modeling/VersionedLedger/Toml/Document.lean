import VersionedLedger.Toml.Scalar
import VersionedLedger.Toml.Table

/-! Settings files: keys, values, and the lines that are made of them. Brackets and braces, and the
parts of a key, may be nested to a fixed depth. -/
namespace VersionedLedger.Toml

open Reader

def depthLimit : Nat := 80

def isBare (c : Char) : Bool :=
  c.isAlphanum || c == '_' || c == '-'

def keyPart : Reader String := basicText <|> literalText <|> do
  let first ← one isBare
  pure (.ofList (first :: (← run isBare)))

def path : Reader Path := do
  gap
  let first ← keyPart
  gap
  let rest ← many do
    char '.'
    gap
    let part ← keyPart
    gap
    pure part
  let parts := first :: rest
  match parts.getLast? with
  | some key => if parts.length < depthLimit then pure ⟨parts.dropLast, key⟩ else failure
  | none => failure

def comment : Reader Unit := do
  char '#'
  let _ ← run isPlain

def space : Reader Unit := do
  let _ ← many ((do let _ ← one isGap) <|> lineBreak <|> do
    comment
    lineBreak)

/-- Items up to a closing bracket, with commas between them and perhaps after the last. -/
def listItems (item : Reader Value) : Nat → Reader (List Value)
  | 0 => pure []
  | limit + 1 => do
    space
    if (← peek) == some ']' then pure []
    else
      let v ← item
      space
      if (← peek) == some ',' then
        char ','
        pure (v :: (← listItems item limit))
      else pure [v]

def list (item : Reader Value) : Reader Value := do
  char '['
  let items ← listItems item (← get).length
  space
  char ']'
  pure (.list items)

def pair (item : Reader Value) : Reader (Path × Value) := do
  let p ← path
  char '='
  gap
  let v ← item
  gap
  pure (p, v)

def pairs (item : Reader Value) : Reader (List (Path × Value)) := do
  gap
  if (← peek) == some '\x7d' then pure []
  else
    let first ← pair item
    let rest ← many do
      char ','
      pair item
    pure (first :: rest)

def bracedTable (item : Reader Value) : Reader Value := do
  char '\x7b'
  let entries ← pairs item
  char '\x7d'
  match entries.foldlM (fun m (p, v) => Members.put p.tables p.key v m) [] with
  | some m => pure (.table (closeMembers m))
  | none => failure

def scalarValue : Reader Value := do
  match ← peek with
  | some '"' | some '\'' => Value.text <$> quotedText
  | some 't' => do
    text "true"
    pure (.flag true)
  | some 'f' => do
    text "false"
    pure (.flag false)
  | _ => (do moment; pure .moment) <|> Value.real <$> real <|> Value.whole <$> whole

def value : (depth : Nat) → Reader Value
  | 0 => scalarValue
  | depth + 1 => do
    match ← peek with
    | some '[' => list (value depth)
    | some '\x7b' => bracedTable (value depth)
    | _ => scalarValue

def statement : Reader Statement := do
  if (← peek) != some '[' then
    let (p, v) ← pair (value (depthLimit - 1))
    pure (.entry p v)
  else
    char '['
    if (← peek) == some '[' then
      char '['
      let p ← path
      text "]]"
      pure (.listHeader p)
    else
      let p ← path
      char ']'
      pure (.header p)

def line : Reader (Option Statement) := do
  gap
  let said ← match ← peek with
    | none | some '#' | some '\n' | some '\r' => pure none
    | _ => some <$> statement
  gap
  let _ ← maybe comment
  pure said

def document : Reader (List Statement) := do
  let _ ← maybe (char '\ufeff')
  let first ← line
  let rest ← many do
    lineBreak
    line
  if (← get).isEmpty then pure ((first :: rest).filterMap id) else failure

def parse? (content : String) : Option (List (String × Value)) := do
  let (statements, _) ← StateT.run document content.toList
  let draft ← Draft.ofStatements statements
  pure (closeMembers draft.root)

end VersionedLedger.Toml

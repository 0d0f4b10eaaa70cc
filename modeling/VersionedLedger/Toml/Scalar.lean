import VersionedLedger.Decimal.Read
import VersionedLedger.Text.Hex
import VersionedLedger.Toml.Reader

/-! The texts, numbers and points in time of a settings file. Numbers may be grouped by single
underscores between digits; whole numbers have to fit a signed 64-bit word. -/
namespace VersionedLedger.Toml

open Reader

def isGap (c : Char) : Bool := c == ' ' || c == '\t'

def isPlain (c : Char) : Bool := c == '\t' || (' ' ≤ c && c ≠ '\x7f')

def gap : Reader Unit := do let _ ← run isGap

def lineBreak : Reader Unit := char '\n' <|> text "\r\n"

def scalar? (code : Nat) : Option Char := if code.isValidChar then some (.ofNat code) else none

def hexValue (digits : List Char) : Nat :=
  digits.foldl (fun n c => 16 * n + (Text.hexDigit? c).getD 0) 0

def isHex (c : Char) : Bool := (Text.hexDigit? c).isSome

def escaped : Reader Char := do
  match ← one fun _ => true with
  | 'b' => pure '\x08'
  | 't' => pure '\t'
  | 'n' => pure '\n'
  | 'f' => pure '\x0c'
  | 'r' => pure '\r'
  | '"' => pure '"'
  | '\\' => pure '\\'
  | 'u' => StateT.lift (scalar? (hexValue (← exactly isHex 4)))
  | 'U' => StateT.lift (scalar? (hexValue (← exactly isHex 8)))
  | _ => failure

def basicChar : Reader Char := do
  let c ← one fun c => isPlain c && c ≠ '"'
  if c == '\\' then escaped else pure c

def basicText : Reader String := do
  char '"'
  let content ← many basicChar
  char '"'
  pure (.ofList content)

def literalText : Reader String := do
  char '\''
  let content ← run fun c => isPlain c && c ≠ '\''
  char '\''
  pure (.ofList content)

/-- A backslash at the end of a line swallows the break and all blanks after it. -/
def continuation : Reader (List Char) := do
  char '\\'
  gap
  lineBreak
  let _ ← many (lineBreak <|> do let _ ← one isGap)
  pure []

def innerQuotes (quote : Char) : Reader (List Char) := do
  let quotes ← run (· == quote)
  if quotes.length < 3 && !quotes.isEmpty then pure quotes else failure

/-- Three quotes close a long text; up to two more before them belong to it. -/
def closingQuotes (quote : Char) : Reader (List Char) := fun input =>
  let n := (input.takeWhile (· == quote)).length
  if n < 3 then none else some (.replicate (min n 5 - 3) quote, input.drop (min n 5))

def longText (quote : Char) (piece : Reader (List Char)) : Reader String := do
  let _ ← exactly (· == quote) 3
  let _ ← maybe lineBreak
  let pieces ← many ((do lineBreak; pure ['\n']) <|> piece <|> innerQuotes quote)
  let last ← closingQuotes quote
  pure (.ofList (pieces.flatten ++ last))

def longBasicText : Reader String :=
  longText '"' (continuation <|> do pure [← basicChar])

def longLiteralText : Reader String :=
  longText '\'' do pure [← one fun c => isPlain c && c ≠ '\'']

def quotedText : Reader String := do
  let input ← get
  if "\"\"\"".toList.isPrefixOf input then longBasicText
  else if "'''".toList.isPrefixOf input then longLiteralText
  else basicText <|> literalText

/-- Digits of a class with single underscores between them; the underscores are dropped. -/
def digits (accept : Char → Bool) : Reader (List Char) := do
  let first ← one accept
  let rest ← many (one accept <|> do
    char '_'
    one accept)
  pure (first :: rest)

def decimalValue (ds : List Char) : Nat := ds.foldl (fun n c => 10 * n + (c.toNat - 48)) 0

def sign : Reader Bool := do
  match ← maybe (one fun c => c == '+' || c == '-') with
  | some c => pure (c == '-')
  | none => pure false

def wholePart : Reader (List Char) := do
  if (← peek) == some '0' then exactly (· == '0') 1 else digits Char.isDigit

def inWord (n : Int) : Reader Int :=
  if Int64.minValue.toInt ≤ n && n ≤ Int64.maxValue.toInt then pure n else failure

def radixValue (base : Nat) (ds : List Char) : Nat :=
  ds.foldl (fun n c => base * n + (Text.hexDigit? c).getD 0) 0

def radixWhole (lead : String) (base : Nat) : Reader Int := do
  text lead
  let ds ← digits fun c => (Text.hexDigit? c).any (· < base)
  inWord (radixValue base ds)

def whole : Reader Int :=
  radixWhole "0x" 16 <|> radixWhole "0o" 8 <|> radixWhole "0b" 2 <|> do
    let negative ← sign
    let n : Int := decimalValue (← wholePart)
    inWord (if negative then -n else n)

def exponent : Reader Int := do
  let _ ← one fun c => c == 'e' || c == 'E'
  let negative ← sign
  let n : Int := decimalValue (← digits Char.isDigit)
  pure (if negative then -n else n)

def fractionDigits : Reader (List Char) := do
  char '.'
  digits Char.isDigit

def signedReal (negative : Bool) (x : Float) : Float := if negative then -x else x

/-- A number with a fraction, an exponent or both. One above the largest is refused, one below the
smallest is an infinity. -/
def finiteReal : Reader Float := do
  let negative ← sign
  let units ← wholePart
  let (fraction, power) ← (do
      let power ← exponent
      pure ([], power)) <|> (do
      let fraction ← fractionDigits
      pure (fraction, (← maybe exponent).getD 0))
  let x := Decimal.nearest (decimalValue (units ++ fraction)) (power - fraction.length)
  if x.isInf && !negative then failure else pure (signedReal negative x)

def specialReal : Reader Float := do
  let negative ← sign
  (do text "inf"; pure (signedReal negative (1.0 / 0.0))) <|>
    (do text "nan"; pure (0.0 / 0.0))

def real : Reader Float := finiteReal <|> specialReal

def field (width least most : Nat) : Reader Nat := do
  let n := decimalValue (← exactly Char.isDigit width)
  if least ≤ n && n ≤ most then pure n else failure

def isLeap (year : Nat) : Bool := (year % 4 = 0 && year % 100 ≠ 0) || year % 400 = 0

def daysIn (year month : Nat) : Nat :=
  if month = 2 then if isLeap year then 29 else 28
  else if month = 4 || month = 6 || month = 9 || month = 11 then 30 else 31

def date : Reader Unit := do
  let year ← field 4 0 9999
  char '-'
  let month ← field 2 1 12
  char '-'
  let _ ← field 2 1 (daysIn year month)

def timeOfDay : Reader Unit := do
  let _ ← field 2 0 23
  char ':'
  let _ ← field 2 0 59
  char ':'
  let _ ← field 2 0 60
  let _ ← maybe do
    char '.'
    let _ ← one Char.isDigit
    run Char.isDigit

def offset : Reader Unit :=
  (do let _ ← one fun c => c == 'Z' || c == 'z') <|> do
    let _ ← one fun c => c == '+' || c == '-'
    let _ ← field 2 0 23
    char ':'
    let _ ← field 2 0 59

def moment : Reader Unit :=
  (do
    date
    let _ ← maybe do
      let _ ← one fun c => c == 'T' || c == 't' || c == ' '
      timeOfDay
      maybe offset) <|> timeOfDay

end VersionedLedger.Toml

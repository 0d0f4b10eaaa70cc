import VersionedLedger.Decimal.Shortest

/-! How a number's digits are set out: which numbers are written with a point and which with an
exponent. One record value holds the choices of one format. -/
namespace VersionedLedger.Decimal

structure Layout where
  /-- Numbers below `10 ^ low` take an exponent. -/
  low : Option Int
  /-- Numbers of at least `10 ^ high` take an exponent. -/
  high : Option Int
  /-- Whole numbers end in `.0`. -/
  wholeSuffix : Bool
  /-- A positive exponent has its sign written. -/
  exponentSign : Bool
  /-- Of two equally near decimals the larger is taken, not the even one. -/
  tieUp : Bool

def plain : Layout := ⟨none, none, false, false, true⟩

/-- The form in which values are shown to developers. -/
def inspected : Layout := ⟨some (-4), some 16, true, false, true⟩

def json : Layout := ⟨some (-5), some 16, true, true, false⟩

def zeros (n : Nat) : String := String.ofList (List.replicate n '0')

namespace Layout

def signed (negative : Bool) (text : String) : String := if negative then "-" ++ text else text

/-- Digits with a point, `point` places from their left end. -/
def positional (l : Layout) (digits : String) (point : Int) : String :=
  let count : Int := digits.length
  if point ≤ 0 then "0." ++ zeros (-point).toNat ++ digits
  else if count ≤ point then
    digits ++ zeros (point - count).toNat ++ if l.wholeSuffix then ".0" else ""
  else (digits.take point.toNat).toString ++ "." ++ (digits.drop point.toNat).toString

def scientific (l : Layout) (digits : String) (point : Int) : String :=
  let mantissa :=
    if digits.length = 1 then digits
    else (digits.take 1).toString ++ "." ++ (digits.drop 1).toString
  mantissa ++ "e" ++ (if l.exponentSign && point > 1 then "+" else "") ++ toString (point - 1)

def finite (l : Layout) (b : Binary) : String :=
  let d := shortest b l.tieUp
  let digits := toString d.digits
  let point := d.exponent + digits.length
  let tooSmall := match l.low with
    | some low => point ≤ low
    | none => false
  let tooLarge := match l.high with
    | some high => high < point
    | none => false
  if tooSmall || tooLarge then l.scientific digits point else l.positional digits point

def finite? (l : Layout) (x : Float) : Option String :=
  match ofFloat x with
  | (negative, .finite b) => some (signed negative (l.finite b))
  | (negative, .zero) => some (signed negative (if l.wholeSuffix then "0.0" else "0"))
  | _ => none

def text (l : Layout) (x : Float) : String :=
  match ofFloat x with
  | (negative, .infinite) => signed negative "inf"
  | _ => (l.finite? x).getD "NaN"

end Layout

end VersionedLedger.Decimal

import VersionedLedger.Decimal.Read
import VersionedLedger.Text.Json

/-! Looking into a document. A member that is missing counts as null, and what is null or of another
kind than the one looked for stands for a fallback. -/
namespace VersionedLedger.Text.Json

def member (j : Json) (name : String) : Json :=
  match j with
  | members items => (items.lookup name).getD null
  | _ => null

instance : GetElem Json String Json fun _ _ => True where
  getElem j name _ := j.member name

def given? : Json → Option Json
  | null => none
  | j => some j

def isGiven (j : Json) : Bool := j.given?.isSome

def items : Json → List Json
  | list items => items
  | _ => []

def isTrue : Json → Bool
  | flag value => value
  | _ => false

def strOr (fallback : String) : Json → String
  | text value => value
  | _ => fallback

def str (j : Json) : String := j.strOr ""

def int : Json → Int
  | whole value => value
  | _ => 0

def natOr (fallback : Nat) : Json → Nat
  | whole value => value.toNat
  | _ => fallback

def nat (j : Json) : Nat := j.natOr 0

/-- A whole number is rounded, and words stand for what has no digits. -/
def float? : Json → Option Float
  | real value => some value
  | whole value =>
    let size := Decimal.nearest value.natAbs 0
    some (if value < 0 then -size else size)
  | text "nan" => some (0.0 / 0.0)
  | text "inf" => some (1.0 / 0.0)
  | text "-inf" => some (-1.0 / 0.0)
  | _ => none

def floatOr (fallback : Float) (j : Json) : Float := j.float?.getD fallback

def float (j : Json) : Float := j.floatOr 0.0

end VersionedLedger.Text.Json

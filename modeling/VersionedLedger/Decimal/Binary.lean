/-! A floating-point number taken apart: sign, and a significand times a power of two, or one of
the special values. All texts of numbers are computed from this form in exact arithmetic. -/
namespace VersionedLedger.Decimal

/-- The positive number `significand * 2 ^ exponent`. With `narrowBelow` the gap to the next
smaller representable number is half the gap to the next larger one. -/
structure Binary where
  significand : Nat
  exponent : Int
  narrowBelow : Bool
  deriving DecidableEq, Repr

inductive Magnitude
  | zero
  | finite (value : Binary)
  | infinite
  | undefined
  deriving DecidableEq, Repr

/-- What the significand of a normal number holds above its 52 bits of fraction. -/
def leadingBit : Nat := 1 <<< 52

def tenTo (n : Nat) : Nat := Nat.pow 10 n

/-- The parts of a 64-bit pattern: 52 bits of fraction, 11 of exponent, the sign on top. -/
def ofBits (bits : Nat) : Bool × Magnitude :=
  let fraction := bits % leadingBit
  let scale : Nat := (bits >>> 52) % 2048
  let size :=
    if scale = 2047 then (if fraction = 0 then .infinite else .undefined)
    else if scale = 0 then
      (if fraction = 0 then .zero else .finite ⟨fraction, -1074, false⟩)
    else .finite ⟨leadingBit + fraction, (scale : Int) - 1075, fraction = 0 && scale > 1⟩
  ((bits >>> 63) % 2 == 1, size)

def ofFloat (x : Float) : Bool × Magnitude := ofBits x.toBits.toNat

namespace Binary

/-- The number as a fraction, in quarters of the gap above it so that the ends of the interval
that rounds to it are whole: numerator step and denominator. -/
def quarters (b : Binary) : Nat × Nat :=
  if b.exponent < 2 then (1, 1 <<< (2 - b.exponent).toNat) else (1 <<< (b.exponent - 2).toNat, 1)

def fraction (b : Binary) : Nat × Nat :=
  if b.exponent < 0 then (b.significand, 1 <<< (-b.exponent).toNat)
  else (b.significand <<< b.exponent.toNat, 1)

end Binary

end VersionedLedger.Decimal

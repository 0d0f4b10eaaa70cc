import VersionedLedger.Decimal.Binary

/-! The shortest decimal that reads back as a given number, and of those the nearest. For each
digit count the two neighbours of the number on that decimal grid are tried in turn; the first
grid with a neighbour inside the interval that rounds to the number decides. -/
namespace VersionedLedger.Decimal

structure Scaled where
  digits : Nat
  exponent : Int
  deriving DecidableEq, Repr

def width (n : Nat) : Nat := if n = 0 then 0 else (Nat.toDigits 10 n).length

/-- The position of the decimal point: `num / den` is at least `10 ^ (p - 1)` and below `10 ^ p`. -/
def pointOf (num den : Nat) : Int :=
  if num < den then 1 - (width ((den - 1) / num) : Int) else width (num / den)

namespace Binary

/-- Whether `digits * 10 ^ exponent` rounds to `b`: it lies within half a gap on either side, the
ends counting when the significand is even. -/
def accepts (b : Binary) (d : Scaled) : Bool :=
  let (step, den) := b.quarters
  let low := (4 * b.significand - if b.narrowBelow then 1 else 2) * step
  let high := (4 * b.significand + 2) * step
  let (num, scale) :=
    if d.exponent < 0 then (d.digits * den, tenTo (-d.exponent).toNat)
    else (d.digits * tenTo d.exponent.toNat * den, 1)
  if b.significand % 2 = 0 then low * scale ≤ num && num ≤ high * scale
  else low * scale < num && num < high * scale

/-- The neighbours of `b` on the grid of multiples of `10 ^ exponent`, with twice the distance from
the lower one over the step, as a comparison with the middle. -/
def neighbours (b : Binary) (exponent : Int) : Nat × Ordering :=
  let (num, den) := b.fraction
  let (num, den) :=
    if exponent < 0 then (num * tenTo (-exponent).toNat, den)
    else (num, den * tenTo exponent.toNat)
  (num / den, compare (2 * (num % den)) den)

/-- The nearest acceptable neighbour on one grid; `tieUp` settles a number in the very middle,
else the even neighbour does. -/
def onGrid? (b : Binary) (tieUp : Bool) (exponent : Int) : Option Scaled :=
  let (floor, middle) := b.neighbours exponent
  let low : Scaled := ⟨floor, exponent⟩
  let high : Scaled := ⟨floor + 1, exponent⟩
  match b.accepts low && floor ≠ 0, b.accepts high with
  | false, false => none
  | true, false => some low
  | false, true => some high
  | true, true =>
    match middle with
    | .lt => some low
    | .gt => some high
    | .eq => some (if tieUp || floor % 2 = 1 then high else low)

/-- Tries the grids for `17 - n` digits and more. -/
def search (b : Binary) (tieUp : Bool) (point : Int) : Nat → Scaled
  | 0 => ⟨(b.neighbours (point - 17)).1, point - 17⟩
  | n + 1 => (b.onGrid? tieUp (point - (17 - n))).getD (b.search tieUp point n)

end Binary

def trim : Nat → Scaled → Scaled
  | 0, d => d
  | n + 1, d =>
    if d.digits % 10 = 0 && d.digits ≠ 0 then trim n ⟨d.digits / 10, d.exponent + 1⟩ else d

def shortest (b : Binary) (tieUp : Bool) : Scaled :=
  let (num, den) := b.fraction
  trim 20 (b.search tieUp (pointOf num den) 17)

end VersionedLedger.Decimal

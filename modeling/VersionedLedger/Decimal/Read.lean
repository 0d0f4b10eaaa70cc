/-! The floating-point number nearest to a decimal. -/
namespace VersionedLedger.Decimal

/-- `digits * 10 ^ exponent`, rounded; beyond the range of the format the answer is known without
forming the power. -/
def nearest (digits : Nat) (exponent : Int) : Float :=
  if digits = 0 then 0.0
  else
    let size := (Nat.toDigits 10 digits).length
    if exponent + size > 400 then 1.0 / 0.0
    else if exponent + size < -400 then 0.0
    else Float.ofScientific digits (exponent < 0) exponent.natAbs

end VersionedLedger.Decimal

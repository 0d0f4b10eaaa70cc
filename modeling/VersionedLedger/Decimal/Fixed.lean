import VersionedLedger.Decimal.Layout

/-! Numbers with a fixed count of places after the point, rounded from the exact value; a half
goes to the even neighbour. -/
namespace VersionedLedger.Decimal

def roundHalfEven (num den : Nat) : Nat :=
  let floor := num / den
  match compare (2 * (num % den)) den with
  | .lt => floor
  | .gt => floor + 1
  | .eq => if floor % 2 = 0 then floor else floor + 1

def padLeft (width : Nat) (text : String) : String := zeros (width - text.length) ++ text

def fixed (places : Nat) (x : Float) : String :=
  let (negative, size) := ofFloat x
  match size with
  | .undefined => "NaN"
  | .infinite => Layout.signed negative "inf"
  | .zero => Layout.signed negative (setOut 0)
  | .finite b =>
    let (num, den) := b.fraction
    Layout.signed negative (setOut (roundHalfEven (num * tenTo places) den))
where
  setOut (scaled : Nat) : String :=
    if places = 0 then toString scaled
    else toString (scaled / tenTo places) ++ "." ++
      padLeft places (toString (scaled % tenTo places))

theorem roundHalfEven_exact (n den : Nat) (h : 0 < den) : roundHalfEven (n * den) den = n := by
  have : compare 0 den = .lt := by rw [Nat.compare_eq_lt]; exact h
  simp [roundHalfEven, Nat.mul_div_cancel n h, this]

end VersionedLedger.Decimal

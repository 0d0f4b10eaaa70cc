/-! Amounts of money in minor units, kept in a signed 64-bit word, and version stamps below 2^64.
Sums are formed in the integers first, so an operation says whether its result still fits. -/
namespace VersionedLedger

abbrev Amount := Int64

namespace Amount

def ofInt? (n : Int) : Option Amount :=
  if Int64.minValue.toInt ≤ n ∧ n ≤ Int64.maxValue.toInt then some (Int64.ofInt n) else none

def add? (a b : Amount) : Option Amount := ofInt? (a.toInt + b.toInt)

def sub? (a b : Amount) : Option Amount := ofInt? (a.toInt - b.toInt)

def mul? (a b : Amount) : Option Amount := ofInt? (a.toInt * b.toInt)

theorem toInt_of_ofInt? {n : Int} {a : Amount} (h : ofInt? n = some a) : a.toInt = n := by
  unfold ofInt? at h
  split at h
  · next fits => cases h; exact Int64.toInt_ofInt_of_le fits.1 (Int.lt_add_one_of_le fits.2)
  · cases h

theorem ofInt?_eq_none {n : Int} :
    ofInt? n = none ↔ n < Int64.minValue.toInt ∨ Int64.maxValue.toInt < n := by
  unfold ofInt?
  split <;> simp only [reduceCtorEq, false_iff, true_iff] <;> omega

theorem toInt_of_add? {a b c : Amount} (h : add? a b = some c) :
    c.toInt = a.toInt + b.toInt := toInt_of_ofInt? h

theorem toInt_of_sub? {a b c : Amount} (h : sub? a b = some c) :
    c.toInt = a.toInt - b.toInt := toInt_of_ofInt? h

end Amount

abbrev Version := Nat

namespace Version

/-- Versions are stored in an unsigned 64-bit word. -/
def limit : Nat := UInt64.size

def add? (v : Version) (n : Nat) : Option Version := if v + n < limit then some (v + n) else none

theorem eq_of_add? {v w : Version} {n : Nat} (h : add? v n = some w) : w = v + n := by
  unfold add? at h
  split at h <;> simp_all

end Version

end VersionedLedger

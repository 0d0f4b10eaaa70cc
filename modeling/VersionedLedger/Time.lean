/-! Instants and lengths of time, both in nanoseconds. -/
namespace VersionedLedger

abbrev Duration := Nat

abbrev Time := Nat

namespace Duration

def ofMillis (n : Nat) : Duration := n * 1000000

def toMillis (d : Duration) : Nat := d / 1000000

theorem toMillis_ofMillis (n : Nat) : toMillis (ofMillis n) = n := by
  simp [toMillis, ofMillis]

end Duration

end VersionedLedger

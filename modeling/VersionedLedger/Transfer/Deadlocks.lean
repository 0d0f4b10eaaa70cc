/-! Counts of transfers that were picked to break a cycle of waiting owners. No run makes the 2 ^ 64 attempts that would
fill a word. -/
namespace VersionedLedger

structure DeadlockStats where
  deadlocksDetected : Nat := 0
  /-- Attempts made because an earlier one was picked. -/
  retries : Nat := 0
  successes : Nat := 0
  failures : Nat := 0
  deriving DecidableEq, Repr

inductive DeadlockCount
  | detected
  | succeeded (retries : Nat)
  | failed (retries : Nat)
  deriving DecidableEq, Repr

namespace DeadlockStats

def count (s : DeadlockStats) : DeadlockCount → DeadlockStats
  | .detected => { s with deadlocksDetected := s.deadlocksDetected + 1 }
  | .succeeded n => { s with retries := s.retries + n, successes := s.successes + 1 }
  | .failed n => { s with retries := s.retries + n, failures := s.failures + 1 }

end DeadlockStats

end VersionedLedger

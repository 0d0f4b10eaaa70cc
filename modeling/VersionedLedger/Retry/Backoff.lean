import VersionedLedger.Config.Retry

/-! Waits between attempts. Jitter only lengthens a delay, and the ceiling holds after it. -/
namespace VersionedLedger.Backoff

def drawLimit : Nat := 1 <<< 53

def isRandom (delay : Duration) : Jitter → Bool
  | .none => false
  | .proportional factor => 0.0 < factor && delay ≠ 0

/-- What the draw adds to a delay: its share of `factor` times the delay. The factor is meant to be between 0 and 1, as
`RetryConfig.validate` wants it; nothing is said of one for which there is no such range or no such product. -/
def extra (delay : Duration) (factor : Float) (draw : Nat) : Duration :=
  let share := draw.toUInt64.toFloat / drawLimit.toUInt64.toFloat
  (delay.toUInt64.toFloat * factor * share).toUInt64.toNat

def withJitter (delay : Duration) (jitter : Jitter) (draw : Nat) : Duration :=
  match jitter with
  | .none => delay
  | .proportional factor =>
    if isRandom delay (.proportional factor) then delay + extra delay factor draw else delay

def delay (c : RetryConfig) (attempt : Nat) (draw : Nat) : Duration :=
  min (withJitter (c.delayFor attempt) c.jitter draw) (.ofMillis c.maxDelay)

def varies (c : RetryConfig) (attempt : Nat) : Bool :=
  isRandom (c.delayFor attempt) c.jitter && c.delayMillis attempt < c.maxDelay

def schedule (c : RetryConfig) (limit : Nat) : List Duration :=
  (List.range (min limit (c.maxAttempts - 1))).map c.delayFor

theorem delay_le (c : RetryConfig) (attempt draw : Nat) :
    delay c attempt draw ≤ .ofMillis c.maxDelay := Nat.min_le_right _ _

theorem le_withJitter (d : Duration) (jitter : Jitter) (draw : Nat) :
    d ≤ withJitter d jitter draw := by
  unfold withJitter
  split
  · exact Nat.le_refl d
  · split
    · exact Nat.le_add_right _ _
    · exact Nat.le_refl d

end VersionedLedger.Backoff

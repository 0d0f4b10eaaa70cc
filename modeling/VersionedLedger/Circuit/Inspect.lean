import VersionedLedger.Circuit.Registry
import VersionedLedger.Config.Inspect

/-! Circuits as shown to a developer. -/
namespace VersionedLedger

open Text Text.Inspected

namespace CircuitState

def inspect : CircuitState → Inspected
  | closed => word "Closed"
  | opened => word "Open"
  | halfOpen => word "HalfOpen"

end CircuitState

namespace Breaker

def inspect (b : Breaker) : Inspected := Inspected.record "CircuitBreaker"
  [("name", quoted b.name), ("state", b.state.inspect), ("config", b.config.inspect)]

end Breaker

namespace CircuitRegistry

def inspect (r : CircuitRegistry) : Inspected := Inspected.record "CircuitRegistry"
  [("breakers", whole r.names.size), ("defaults", r.defaults.inspect)]

end CircuitRegistry

end VersionedLedger

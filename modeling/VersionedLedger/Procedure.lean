import VersionedLedger.Program

/-! Programs that may fail and that keep a state of their own. The state survives a failure, so
what happened before it stays known. -/
namespace VersionedLedger

abbrev Procedure (σ α : Type) := ExceptT Failure (StateT σ Program) α

namespace Procedure

variable {σ τ α : Type}

def perform (c : Call) : Procedure σ c.Reply := ExceptT.lift (StateT.lift (Program.perform c))

def fail (e : Error) : Procedure σ α := throw (.error e)

def crash (c : Crash) : Procedure σ α := throw (.crash c)

def ofOutcome (answer : Outcome α) : Procedure σ α := ExceptT.mk (pure answer)

def ofError (answer : Except Error α) : Procedure σ α := ofOutcome (Outcome.ofError answer)

def outcome (p : Procedure σ α) : Procedure σ (Outcome α) := ExceptT.lift p.run

def within (own : τ) (p : Procedure τ α) : Procedure σ (Outcome α × τ) :=
  ExceptT.lift (StateT.lift (p.run.run own))

def start (p : Procedure σ α) (s : σ) : Program (Outcome α × σ) := p.run.run s

end Procedure

end VersionedLedger

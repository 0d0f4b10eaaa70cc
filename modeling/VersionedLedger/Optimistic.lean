import VersionedLedger.Account
import VersionedLedger.Procedure

/-! Writes that are conditional on the version read before. A conditional write holds its record's
lock while it compares and installs; an update reads, computes and writes once, without retrying. -/
namespace VersionedLedger.Optimistic

open Procedure

variable {σ : Type}

def read (id : RecordId) : Procedure σ Record := do
  match ← perform (.lookup id) with
  | some stored => pure stored
  | none => fail (.notFound id)

def conditionalUpdate (id : RecordId) (expected : Version) (balance : Amount) :
    Procedure σ Record := do
  ofError (← perform (.checkFault "conditional_update"))
  if (← perform (.lookup id)).isNone then fail (.notFound id)
  let owner ← perform .begin
  ofOutcome (← perform (.acquire owner id none false))
  let answer ← perform (.install id expected balance)
  perform (.release owner id)
  ofOutcome answer

def update (id : RecordId) (mutate : Amount → Procedure σ Amount) : Procedure σ Update := do
  let before ← read id
  let balance ← mutate before.balance
  let after ← conditionalUpdate id before.version balance
  pure ⟨before, after⟩

def credit (id : RecordId) (amount : Amount) : Procedure σ Update :=
  update id fun balance => ofError (Account.credit balance amount)

def debit (id : RecordId) (amount : Amount) : Procedure σ Update :=
  update id fun balance => ofError (Account.debit balance amount)

end VersionedLedger.Optimistic

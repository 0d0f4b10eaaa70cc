import VersionedLedger.Transfer.Locking

/-! Moving an amount from one record to another: a debit and a credit staged in one transaction
that holds both locks. -/
namespace VersionedLedger

open Procedure

structure Transfer where
  source : RecordId
  target : RecordId
  amount : Amount
  deriving DecidableEq, Repr

structure Receipt where
  transfer : Transfer
  sourceBalance : Amount
  targetBalance : Amount
  sourceVersion : Version
  targetVersion : Version
  deriving DecidableEq, Repr

namespace Transfer

def ids (t : Transfer) : List RecordId := [t.source, t.target]

def validate (t : Transfer) : Except Error Unit :=
  if t.source = t.target then
    .error (.validation s!"cannot transfer from {t.source.text} to itself")
  else if t.amount ≤ 0 then
    .error (.validation s!"transfer amount must be positive, got {t.amount}")
  else .ok ()

/-- Stages both writes; the transaction already holds both locks. -/
def stage (t : Transfer) : Session Receipt := do
  let source ← Session.read t.source
  let target ← Session.read t.target
  let debited ← ofError (Account.debit source.balance t.amount)
  let credited ← ofError (Account.credit target.balance t.amount)
  let source ← Session.write t.source source.version debited
  let target ← Session.write t.target target.version credited
  pure
    { transfer := t
      sourceBalance := source.balance
      targetBalance := target.balance
      sourceVersion := source.version
      targetVersion := target.version }

variable {σ : Type}

def ordered (l : Locking) (t : Transfer) : Procedure σ Receipt := do
  ofError t.validate
  l.withLocks t.ids t.stage

/-- One attempt under both locks, the source's taken first. -/
def requested (l : Locking) (t : Transfer) : Procedure σ Receipt :=
  l.withLocksInRequestOrder t.ids t.stage

end Transfer

end VersionedLedger

import VersionedLedger.Failure

/-! Crediting and debiting one balance. Amounts are positive, a debit never overdraws, and no
result leaves its word, so both operations are free of overflow. -/
namespace VersionedLedger.Account

def credit (balance amount : Amount) : Except Error Amount :=
  if amount ≤ 0 then .error (.validation s!"credit amount must be positive, got {amount}")
  else match Amount.add? balance amount with
    | some sum => .ok sum
    | none => .error (.validation s!"credit of {amount} overflows balance")

def debit (balance amount : Amount) : Except Error Amount :=
  if amount ≤ 0 then .error (.validation s!"debit amount must be positive, got {amount}")
  else if balance < amount then
    .error (.validation s!"insufficient funds: balance={balance}, debit={amount}")
  else .ok (balance - amount)

theorem toInt_of_credit {balance amount result : Amount}
    (h : credit balance amount = .ok result) :
    0 < amount.toInt ∧ result.toInt = balance.toInt + amount.toInt := by
  unfold credit at h
  split at h
  · cases h
  · next positive =>
    split at h
    · next sum fits =>
      cases h
      refine ⟨?_, Amount.toInt_of_add? fits⟩
      simpa [Int64.le_iff_toInt_le] using positive
    · cases h

theorem toInt_of_debit {balance amount result : Amount}
    (h : debit balance amount = .ok result) :
    0 < amount.toInt ∧ amount.toInt ≤ balance.toInt ∧
      result.toInt = balance.toInt - amount.toInt := by
  unfold debit at h
  split at h
  · cases h
  · next positive =>
    split at h
    · cases h
    · next covered =>
      cases h
      have pos : 0 < amount.toInt := by simpa [Int64.le_iff_toInt_le] using positive
      have low : amount.toInt ≤ balance.toInt := by
        simpa [Int64.lt_iff_toInt_lt] using covered
      refine ⟨pos, low, ?_⟩
      have upper := Int64.toInt_lt balance
      rw [Int64.toInt_sub]
      apply Int.bmod_eq_of_le <;> omega

end VersionedLedger.Account

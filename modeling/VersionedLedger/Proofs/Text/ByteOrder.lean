import Mathlib.Data.List.Nodup
import Mathlib.Tactic.SplitIfs

/-! Texts in the order of their bytes. UTF-8 keeps the order of the characters, so that comparing texts character by
character and byte by byte comes to the same. -/
namespace VersionedLedger.Text

def bytes (text : String) : List UInt8 := text.toUTF8.data.toList

theorem bytes_eq (text : String) : bytes text = text.toList.flatMap String.utf8EncodeChar := by
  have encoded := congrArg (·.data.toList) (@String.utf8Encode_toList text)
  simpa [List.utf8Encode,bytes] using encoded.symm

/-- The bytes of two different characters differ early enough for the rest not to matter. -/
theorem encoded_lt {c d : Char} (less : c < d) (xs ys : List UInt8) :
    String.utf8EncodeChar c ++ xs < String.utf8EncodeChar d ++ ys := by
  have less : c.val.toNat < d.val.toNat := less
  have bound : d.val.toNat < 1114112 := by
    obtain below | ⟨_,below⟩ := d.valid
    · exact Nat.lt_trans below (by decide)
    · exact below
  -- groups of six bits, one by one: with the larger divisors omega does not find the first group that differs
  have groups (v : Nat) : v / 4096 = v / 64 / 64 ∧ v / 262144 = v / 64 / 64 / 64 ∧
      (v % 64 + 128) % 2 ^ 8 = v % 64 + 128 := by omega
  unfold String.utf8EncodeChar
  generalize c.val.toNat = m at *
  generalize d.val.toNat = n at *
  dsimp only
  split_ifs <;> simp only [List.cons_append,List.nil_append,List.cons_lt_cons_iff,UInt8.lt_iff_toNat_lt,
    ← UInt8.toNat_inj,UInt8.toNat_ofNat',groups] <;> omega

theorem flatMap_encoded_lt {as bs : List Char} (less : as < bs) :
    as.flatMap String.utf8EncodeChar < bs.flatMap String.utf8EncodeChar := by
  induction less with
  | @nil b bs =>
    have size := String.length_utf8EncodeChar b
    cases encoded : String.utf8EncodeChar b with
    | nil =>
      rw [encoded] at size
      exact absurd size (Nat.ne_of_lt b.utf8Size_pos)
    | cons x xs =>
      rw [List.flatMap_cons,encoded]
      exact .nil
  | rel less => exact encoded_lt less _ _
  | cons less ih => exact List.append_left_lt ih

variable {a b : String}

theorem bytes_lt : bytes a < bytes b ↔ a < b := by
  have mono {a b : String} (less : a < b) : bytes a < bytes b := by
    rw [bytes_eq,bytes_eq]
    exact flatMap_encoded_lt less
  refine ⟨fun less => Decidable.by_contra fun other => ?_,mono⟩
  by_cases same : a = b
  · exact List.lt_irrefl _ (same ▸ less)
  · have after : b < a := Decidable.by_contra fun other' => same (String.le_antisymm other' other)
    exact List.lt_asymm less (mono after)

theorem bytes_le : bytes a ≤ bytes b ↔ a ≤ b := not_congr bytes_lt

/-- Sorting by the bytes of a key gives the one ascending list of the elements, in whatever order they come. -/
theorem mergeSort_eq_of_perm {α : Type} {xs ys : List α} (key : α → String) (perm : xs.Perm ys)
    (ascending : ys.Pairwise fun x y => key x < key y) :
    xs.mergeSort (fun x y => decide (bytes (key x) ≤ bytes (key y))) = ys := by
  have sorted := @List.pairwise_mergeSort α (fun x y => decide (bytes (key x) ≤ bytes (key y)))
    (fun x y z first second => by
      simp only [decide_eq_true_eq,bytes_le] at *
      exact String.le_trans first second)
    (fun x y => by simpa [bytes_le] using String.le_total (key x) (key y)) xs
  have distinct : (ys.map key).Nodup := List.pairwise_map.mpr (ascending.imp String.ne_of_lt)
  refine ((List.mergeSort_perm xs _).trans perm).eq_of_pairwise (fun x y member member' le ge => ?_) sorted
    (ascending.imp fun less => ?_)
  · simp only [decide_eq_true_eq,bytes_le] at le ge
    exact List.inj_on_of_nodup_map distinct (perm.mem_iff.mp (List.mem_mergeSort.mp member)) member'
      (String.le_antisymm le ge)
  · exact decide_eq_true (bytes_le.mpr (String.lt_asymm less))

end VersionedLedger.Text

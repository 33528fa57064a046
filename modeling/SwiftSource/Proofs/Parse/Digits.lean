import SwiftSource.Proofs.Parse.Scan

namespace SwiftSource.Parse

-- Digits with a sign in front of a negative number.
def signedValue : List Char → Int
  | '-' :: ds => -(Nat.ofDigitChars 10 ds 0 : Int)
  | ds => (Nat.ofDigitChars 10 ds 0 : Int)

theorem isDigit_of_mem_toDigits {c : Char} {n : Nat} (h : c ∈ Nat.toDigits 10 n) :
    c.isDigit = true :=
  Nat.isDigit_of_mem_toDigits (by decide) (by decide) h

-- The sign is the only character that is not a digit.
theorem signedValue_digits {ds : List Char} (h : ∀ c ∈ ds, c.isDigit = true) :
    signedValue ds = (Nat.ofDigitChars 10 ds 0 : Int) := by
  unfold signedValue
  split
  · rename_i ds
    exact absurd (h '-' (by simp)) (by decide)
  · rfl

theorem toList_toString_of_nonneg {k : Int} (hk : 0 ≤ k) :
    (toString k).toList = Nat.toDigits 10 k.toNat := by
  rw [Int.toString_eq_repr, Int.repr_eq_if, if_pos hk, Nat.toList_repr]

theorem toList_toString_of_neg {k : Int} (hk : k < 0) :
    (toString k).toList = '-' :: Nat.toDigits 10 (-k).toNat := by
  rw [Int.toString_eq_repr, Int.repr_eq_if, if_neg (by omega), String.toList_append,
    Nat.toList_repr]
  rfl

theorem signedValue_toString (k : Int) : signedValue (toString k).toList = k := by
  rcases Int.lt_or_le k 0 with hk | hk
  · rw [toList_toString_of_neg hk]
    simp only [signedValue, Nat.ofDigitChars_ten_toDigits]
    omega
  · rw [toList_toString_of_nonneg hk, signedValue_digits fun c => isDigit_of_mem_toDigits,
      Nat.ofDigitChars_ten_toDigits]
    omega

end SwiftSource.Parse

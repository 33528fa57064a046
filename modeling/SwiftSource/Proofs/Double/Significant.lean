import Mathlib.Algebra.Order.Field.Rat
import Mathlib.Data.List.DropRight
import Mathlib.Tactic.Positivity
import SwiftSource.Proofs.Double.Numeral

namespace SwiftSource.Double

open Parse

-- A number that can be written with `count` digits and a power of ten.
def HasDigits (count : Nat) (q : ℚ) : Prop :=
  ∃ (digits : Nat) (power : ℤ), digits < 10 ^ count ∧ q = digits * 10 ^ power

def Decimal.value (d : Decimal) : ℚ :=
  d.digits * 10 ^ d.exponent / 10 ^ 324

namespace Numeral

def value (n : Numeral) : ℚ :=
  Nat.ofDigitChars 10 (n.whole ++ n.fraction) 0 * 10 ^ (signedValue n.power - n.fraction.length)

-- The digits on both sides of the point, without the zeros at the ends.
def significant (n : Numeral) : List Char :=
  ((n.whole ++ n.fraction).dropWhile (· == '0')).rdropWhile (· == '0')

theorem Denotes.value_eq {n : Numeral} {d : Decimal} (h : n.Denotes d) : n.value = d.value := by
  obtain ⟨exponent, hexponent, hsame⟩ := h
  have hpower : signedValue n.power - n.fraction.length = (exponent : ℤ) - (324 : ℕ) := by
    omega
  have hcast : (Nat.ofDigitChars 10 (n.whole ++ n.fraction) 0 : ℚ) * 10 ^ exponent =
      d.digits * 10 ^ d.exponent := by
    exact_mod_cast hsame
  rw [value, hpower, zpow_sub₀ (by norm_num), zpow_natCast, zpow_natCast, ← mul_div_assoc, hcast,
    Decimal.value]

end Numeral

variable {c : Char} {zs ds : List Char}

theorem digit_lt_ten (hc : c.isDigit = true) : c.toNat - '0'.toNat < 10 := by
  have hle := (Char.isDigit_iff_toNat.mp hc).2
  have hdigits : '9'.toNat = '0'.toNat + 9 := rfl
  omega

theorem digit_pos (hc : c.isDigit = true) (hne : c ≠ '0') : 0 < c.toNat - '0'.toNat := by
  have hle := (Char.isDigit_iff_toNat.mp hc).1
  have hdiffer : c.toNat ≠ '0'.toNat := fun h => hne (Char.toNat_inj.mp h)
  omega

theorem ofDigitChars_lt (hds : ∀ c ∈ ds, c.isDigit = true) :
    Nat.ofDigitChars 10 ds 0 < 10 ^ ds.length := by
  induction ds with
  | nil => simp
  | cons c ds ih =>
      have hrest := ih fun c hc => hds c (List.mem_cons_of_mem _ hc)
      have hdigit := Nat.mul_le_mul_left (10 ^ ds.length) (digit_lt_ten (hds c (by simp)))
      rw [Nat.ofDigitChars_cons, Nat.ofDigitChars_eq_ofDigitChars_zero, Nat.mul_zero, Nat.zero_add,
        List.length_cons, Nat.pow_succ]
      rw [Nat.mul_succ] at hdigit
      omega

theorem pow_le_ofDigitChars (hc : c.isDigit = true) (hne : c ≠ '0') :
    10 ^ ds.length ≤ Nat.ofDigitChars 10 (c :: ds) 0 := by
  rw [Nat.ofDigitChars_cons, Nat.ofDigitChars_eq_ofDigitChars_zero, Nat.mul_zero, Nat.zero_add]
  exact (Nat.le_mul_of_pos_right _ (digit_pos hc hne)).trans (Nat.le_add_right _ _)

theorem ofDigitChars_concat_mod (hc : c.isDigit = true) :
    Nat.ofDigitChars 10 (ds ++ [c]) 0 % 10 = c.toNat - '0'.toNat := by
  have hlt := digit_lt_ten hc
  rw [Nat.ofDigitChars_append, Nat.ofDigitChars_cons, Nat.ofDigitChars_nil]
  omega

theorem ofDigitChars_zeros_append (hzs : ∀ c ∈ zs, c = '0') :
    Nat.ofDigitChars 10 (zs ++ ds) 0 = Nat.ofDigitChars 10 ds 0 := by
  rw [List.eq_replicate_of_mem hzs, Nat.ofDigitChars_append, Nat.ofDigitChars_replicate_zero,
    Nat.mul_zero]

theorem ofDigitChars_append_zeros (hzs : ∀ c ∈ zs, c = '0') :
    Nat.ofDigitChars 10 (ds ++ zs) 0 = Nat.ofDigitChars 10 ds 0 * 10 ^ zs.length := by
  rw [List.eq_replicate_of_mem hzs, Decimal.ofDigitChars_snoc_zeros, List.length_replicate,
    Nat.mul_comm]

namespace Numeral

variable {n : Numeral} {count : Nat}

theorem exists_zeros (n : Numeral) : ∃ leading trailing,
    (∀ c ∈ leading, c = '0') ∧ (∀ c ∈ trailing, c = '0') ∧
      n.whole ++ n.fraction = leading ++ (n.significant ++ trailing) := by
  refine ⟨(n.whole ++ n.fraction).takeWhile (· == '0'),
    ((n.whole ++ n.fraction).dropWhile (· == '0')).rtakeWhile (· == '0'), ?_, ?_, ?_⟩
  · intro c hc
    simpa using List.mem_takeWhile_imp hc
  · intro c hc
    simpa using List.mem_rtakeWhile_imp hc
  · rw [significant, List.rdropWhile_append_rtakeWhile, List.takeWhile_append_dropWhile]

theorem exists_value_eq (n : Numeral) :
    ∃ power : ℤ, n.value = Nat.ofDigitChars 10 n.significant 0 * 10 ^ power := by
  obtain ⟨leading, trailing, hleading, htrailing, hdigits⟩ := n.exists_zeros
  refine ⟨trailing.length + (signedValue n.power - n.fraction.length), ?_⟩
  rw [value, hdigits, ofDigitChars_zeros_append hleading, ofDigitChars_append_zeros htrailing,
    zpow_add₀ (by norm_num), zpow_natCast]
  push_cast
  ring

theorem IsWritten.isDigit_of_mem (hn : n.IsWritten) (hc : c ∈ n.whole ++ n.fraction) :
    c.isDigit = true := by
  rcases List.mem_append.mp hc with hc | hc
  · exact hn.whole c hc
  · exact hn.fraction c hc

theorem isDigit_significant (hn : n.IsWritten) : ∀ c ∈ n.significant, c.isDigit = true := by
  obtain ⟨leading, trailing, -, -, hdigits⟩ := n.exists_zeros
  intro c hc
  refine hn.isDigit_of_mem ?_
  rw [hdigits]
  exact List.mem_append_right _ (List.mem_append_left _ hc)

theorem hasDigits_value (hn : n.IsWritten) : HasDigits n.significant.length n.value := by
  obtain ⟨power, hvalue⟩ := n.exists_value_eq
  exact ⟨_, power, ofDigitChars_lt (isDigit_significant hn), hvalue⟩

theorem head_significant {cs : List Char} (h : n.significant = c :: cs) : c ≠ '0' := by
  obtain ⟨rest, hrest⟩ := List.rdropWhile_prefix (· == '0')
    ((n.whole ++ n.fraction).dropWhile (· == '0'))
  have hhead := List.head?_dropWhile_not (· == '0') (n.whole ++ n.fraction)
  rw [← hrest, ← significant, h] at hhead
  simpa using hhead

theorem last_significant {cs : List Char} (h : n.significant = cs ++ [c]) : c ≠ '0' := by
  have hne : n.significant ≠ [] := by simp [h]
  have hc : n.significant.getLast hne = c := by simp [h]
  have hlast : ¬ (n.significant.getLast hne == '0') = true := List.rdropWhile_last_not _ _ hne
  simpa [hc] using hlast

end Numeral

theorem eq_mul_pow_of_zpow_eq {a b t : Nat} {k : ℤ}
    (h : (a : ℚ) * 10 ^ (k + t) = b * 10 ^ k) : a * 10 ^ t = b := by
  have hpower : (10 : ℚ) ^ k ≠ 0 := zpow_ne_zero k (by norm_num)
  have hcancel : (a * 10 ^ t : ℚ) = b := by
    apply mul_right_cancel₀ hpower
    rw [← h, zpow_add₀ (by norm_num), zpow_natCast]
    ring
  exact_mod_cast hcancel

-- Without a zero at its end a whole number is the least among those that a power of ten turns
-- into the same number.
theorem le_of_mul_zpow_eq {a b : Nat} {j k : ℤ} (ha : a % 10 ≠ 0)
    (h : (a : ℚ) * 10 ^ j = b * 10 ^ k) : a ≤ b := by
  rcases le_total k j with hle | hle
  · obtain ⟨t, rfl⟩ := Int.le.dest hle
    rw [← eq_mul_pow_of_zpow_eq h]
    exact Nat.le_mul_of_pos_right _ (by positivity)
  · obtain ⟨t, rfl⟩ := Int.le.dest hle
    have hb := eq_mul_pow_of_zpow_eq h.symm
    cases t with
    | zero => omega
    | succ t =>
        rw [pow_succ, ← mul_assoc] at hb
        omega

-- No writing of the same number gets by with fewer digits.
theorem Numeral.length_significant_le {n : Numeral} {count : Nat} (hn : n.IsWritten)
    (h : HasDigits count n.value) : n.significant.length ≤ count := by
  obtain ⟨digits, power, hlt, hvalue⟩ := h
  obtain ⟨power', hvalue'⟩ := n.exists_value_eq
  have hdigits := isDigit_significant hn
  cases hfirst : n.significant with
  | nil => exact Nat.zero_le _
  | cons first rest =>
      obtain ⟨others, last, hlast⟩ :=
        (List.eq_nil_or_concat' n.significant).resolve_left (by simp [hfirst])
      have hmod : Nat.ofDigitChars 10 n.significant 0 % 10 ≠ 0 := by
        have hc := hdigits last (by simp [hlast])
        rw [hlast, ofDigitChars_concat_mod hc]
        exact (digit_pos hc (last_significant hlast)).ne'
      have hle := le_of_mul_zpow_eq hmod (hvalue'.symm.trans hvalue)
      have hpow : 10 ^ rest.length ≤ Nat.ofDigitChars 10 n.significant 0 := by
        rw [hfirst]
        exact pow_le_ofDigitChars (hdigits first (by simp [hfirst])) (head_significant hfirst)
      exact (Nat.pow_lt_pow_iff_right (a := 10) (by decide)).mp (by omega)

end SwiftSource.Double

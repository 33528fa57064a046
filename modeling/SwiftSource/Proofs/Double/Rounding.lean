import SwiftSource.Double.Shortest
import Mathlib.Tactic.Linarith
import Mathlib.Tactic.Ring

namespace SwiftSource.Double

-- The whole number nearest to `a / b`. From the middle it is the even one.
def nearestWhole (a b : Nat) : Nat :=
  if 2 * (a % b) < b ∨ 2 * (a % b) = b ∧ a / b % 2 = 0 then a / b else a / b + 1

-- The bits below the sign of the double nearest to `a / b`, counted in units of `2 ^ -1074`.
-- A significand that is rounded up to `2 ^ 53` carries into the exponent by itself.
def nearestPattern (a b : Nat) : Nat :=
  let exponent := (a / b).log2 - 52
  exponent * 2 ^ 52 + nearestWhole a (2 ^ exponent * b)

theorem nearestWhole_eq {a b s : Nat} (hb : 0 < b) (hlow : 2 * (s * b) ≤ 2 * a + b)
    (hhigh : 2 * a ≤ 2 * (s * b) + b)
    (hodd : s % 2 = 1 → 2 * (s * b) ≠ 2 * a + b ∧ 2 * a ≠ 2 * (s * b) + b) :
    nearestWhole a b = s := by
  have hdiv : a / b * b + a % b = a := by rw [Nat.mul_comm]; exact Nat.div_add_mod a b
  have hmod : a % b < b := Nat.mod_lt a hb
  unfold nearestWhole
  generalize a / b = q at *
  generalize a % b = r at *
  have hle : q ≤ s := by
    by_contra hlt
    have hstep : (s + 1) * b ≤ q * b := Nat.mul_le_mul_right b (by omega)
    rw [Nat.succ_mul] at hstep
    omega
  have hge : s ≤ q + 1 := by
    by_contra hlt
    have hstep : (q + 2) * b ≤ s * b := Nat.mul_le_mul_right b (by omega)
    rw [Nat.add_mul] at hstep
    omega
  rcases Nat.lt_or_ge q s with hlt | hge
  · have hs : s = q + 1 := by omega
    subst hs
    have hmul : (q + 1) * b = q * b + b := Nat.succ_mul q b
    rw [if_neg]
    rintro (hr | ⟨hr, heven⟩)
    · omega
    · exact (hodd (by omega)).1 (by omega)
  · have hs : s = q := by omega
    subst hs
    rw [if_pos]
    rcases Nat.lt_or_ge (2 * r) b with hr | hr
    · exact Or.inl hr
    · refine Or.inr ⟨by omega, ?_⟩
      by_contra heven
      exact (hodd (by omega)).2 (by omega)

-- The exponent is found from the whole part alone, for all that is not subnormal.
theorem log2_div_eq {a b e : Nat} (hb : 0 < b) (hlow : 2 ^ 52 * (2 ^ e * b) ≤ a)
    (hhigh : a < 2 ^ 53 * (2 ^ e * b)) : (a / b).log2 - 52 = e := by
  have hpos : 0 < 2 ^ e := Nat.two_pow_pos e
  have hge : 2 ^ (52 + e) ≤ a / b := by
    rw [Nat.le_div_iff_mul_le hb, Nat.pow_add, Nat.mul_assoc]
    exact hlow
  have hlt : a / b < 2 ^ (53 + e) := by
    rw [Nat.div_lt_iff_lt_mul hb, Nat.pow_add, Nat.mul_assoc]
    exact hhigh
  have hne : a / b ≠ 0 := by
    have := Nat.two_pow_pos (52 + e)
    omega
  have h1 : 52 + e ≤ (a / b).log2 := (Nat.le_log2 hne).mpr hge
  have h2 : (a / b).log2 < 53 + e := (Nat.log2_lt hne).mpr hlt
  omega

theorem log2_div_eq_zero {a b : Nat} (hb : 0 < b) (hhigh : a < 2 ^ 53 * b) :
    (a / b).log2 - 52 = 0 := by
  have hlt : a / b < 2 ^ 53 := (Nat.div_lt_iff_lt_mul hb).mpr hhigh
  by_cases hne : a / b = 0
  · simp [hne]
  · have h := (Nat.log2_lt hne).mpr hlt
    omega

namespace Magnitude

-- What the fields of a finite double can hold: only the least exponent goes without the
-- leading bit.
def IsCanonical (m : Magnitude) : Prop :=
  m.significand < 2 ^ 53 ∧ (2 ^ 52 ≤ m.significand ∨ m.exponent = 0)

-- The bits below the sign.
def pattern (m : Magnitude) : Nat :=
  m.exponent * 2 ^ 52 + m.significand

-- The number `a / b` lies between the halfway points around `m`, and on one of them only if
-- the significand is even.
structure Attracts (m : Magnitude) (a b : Nat) : Prop where
  low : 4 * (m.significand * (2 ^ m.exponent * b)) ≤
    4 * a + m.quartersBelow * (2 ^ m.exponent * b)
  high : 4 * a ≤ 4 * (m.significand * (2 ^ m.exponent * b)) + 2 * (2 ^ m.exponent * b)
  odd : m.significand % 2 = 1 →
    4 * (m.significand * (2 ^ m.exponent * b)) ≠
      4 * a + m.quartersBelow * (2 ^ m.exponent * b) ∧
    4 * a ≠ 4 * (m.significand * (2 ^ m.exponent * b)) + 2 * (2 ^ m.exponent * b)

theorem quartersBelow_le (m : Magnitude) : m.quartersBelow ≤ 2 := by
  unfold quartersBelow
  split <;> omega

-- Just below a power of two the exponent of the number is one less than that of `m`, and the
-- significand is rounded up to the carry.
theorem Attracts.pattern_below_power {a b k : Nat} (hb : 0 < b)
    (h : Attracts ⟨2 ^ 52, k + 1⟩ a b) (hlt : a < 2 ^ 52 * (2 ^ (k + 1) * b)) :
    nearestPattern a b = pattern ⟨2 ^ 52, k + 1⟩ := by
  have hquarters : quartersBelow ⟨2 ^ 52, k + 1⟩ = 1 := by simp [quartersBelow]
  have hunit : 2 ^ (k + 1) * b = 2 * (2 ^ k * b) := by rw [Nat.pow_succ]; ring
  have hpos : 0 < 2 ^ k * b := Nat.mul_pos (Nat.two_pow_pos k) hb
  have hlow := h.low
  simp only [hquarters, hunit] at hlow
  rw [hunit] at hlt
  have hexp : (a / b).log2 - 52 = k := log2_div_eq hb (by omega) (by omega)
  have hwhole : nearestWhole a (2 ^ k * b) = 2 ^ 53 := by
    apply nearestWhole_eq hpos
    · omega
    · omega
    · intro hodd
      omega
  simp only [nearestPattern, hexp, hwhole, pattern]
  omega

theorem Attracts.pattern_eq {m : Magnitude} {a b : Nat} (hb : 0 < b) (hc : m.IsCanonical)
    (h : m.Attracts a b) : nearestPattern a b = m.pattern := by
  obtain ⟨significand, exponent⟩ := m
  obtain ⟨hlt, hnormal⟩ := hc
  simp only at hlt hnormal
  by_cases hedge : significand = 2 ^ 52 ∧ 0 < exponent ∧ a < significand * (2 ^ exponent * b)
  · obtain ⟨rfl, hpos, hbelow⟩ := hedge
    obtain ⟨k, rfl⟩ : ∃ k, exponent = k + 1 := ⟨exponent - 1, by omega⟩
    exact h.pattern_below_power hb hbelow
  · have hpos : 0 < 2 ^ exponent * b := Nat.mul_pos (Nat.two_pow_pos exponent) hb
    have hlow := h.low
    have hhigh := h.high
    have hodd := h.odd
    simp only at hlow hhigh hodd
    have hquarters := Nat.mul_le_mul_right (2 ^ exponent * b)
      (quartersBelow_le ⟨significand, exponent⟩)
    have htop : significand * (2 ^ exponent * b) ≤ (2 ^ 53 - 1) * (2 ^ exponent * b) :=
      Nat.mul_le_mul_right _ (by omega)
    have hexp : (a / b).log2 - 52 = exponent := by
      rcases Nat.eq_zero_or_pos exponent with rfl | hexponent
      · apply log2_div_eq_zero hb
        simp only [Nat.pow_zero, Nat.one_mul] at *
        omega
      · apply log2_div_eq hb
        · rcases Nat.eq_or_lt_of_le (show 2 ^ 52 ≤ significand by omega) with heq | hgt
          · subst heq
            omega
          · have hbottom : (2 ^ 52 + 1) * (2 ^ exponent * b) ≤ significand * (2 ^ exponent * b) :=
              Nat.mul_le_mul_right _ (by omega)
            omega
        · omega
    have hwhole : nearestWhole a (2 ^ exponent * b) = significand := by
      apply nearestWhole_eq hpos
      · omega
      · omega
      · intro h1
        have hq : quartersBelow ⟨significand, exponent⟩ = 2 := by
          simp only [quartersBelow]
          rw [if_neg (by omega)]
        have h2 := hodd h1
        rw [hq] at h2
        omega
    simp only [nearestPattern, hexp, hwhole, pattern]

end Magnitude

end SwiftSource.Double

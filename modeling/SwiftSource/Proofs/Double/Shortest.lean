import SwiftSource.Proofs.Double.Rounding

namespace SwiftSource.Double

-- A decimal as a number of units `2 ^ -1074`, up to the denominator `10 ^ 324`.
def Decimal.numerator (d : Decimal) : Nat :=
  d.digits * 10 ^ d.exponent * 2 ^ 1074

theorem Decimal.scaled_eq (d : Decimal) : d.scaled = 4 * d.numerator := by
  rw [Decimal.scaled, Decimal.numerator, Nat.pow_eq, Nat.pow_eq]
  generalize (2 : Nat) ^ 1074 = w
  ring

-- The decimals of one exponent are the multiples of a step.
theorem Decimal.scaled_eq_mul (digits exponent : Nat) :
    Decimal.scaled ⟨digits, exponent⟩ = digits * Decimal.scaled ⟨1, exponent⟩ := by
  simp only [Decimal.scaled, Nat.pow_eq]
  generalize (2 : Nat) ^ 1074 = w
  ring

namespace Magnitude

variable {m : Magnitude} {d : Decimal}

theorem scaled_eq (m : Magnitude) :
    m.scaled = 4 * (m.significand * (2 ^ m.exponent * 10 ^ 324)) := by
  rw [scaled, Nat.pow_eq, Nat.pow_eq]
  generalize (10 : Nat) ^ 324 = b
  ring

theorem upper_eq (m : Magnitude) : m.upper = m.scaled + 2 * (2 ^ m.exponent * 10 ^ 324) := by
  rw [upper, scaled, Nat.pow_eq, Nat.pow_eq]
  generalize (10 : Nat) ^ 324 = b
  ring

theorem scaled_le_lower_add (m : Magnitude) :
    m.scaled ≤ m.lower + m.quartersBelow * (2 ^ m.exponent * 10 ^ 324) := by
  rw [lower, scaled, Nat.pow_eq, Nat.pow_eq, ← Nat.mul_assoc m.quartersBelow, ← Nat.add_mul,
    ← Nat.add_mul]
  apply Nat.mul_le_mul_right
  exact Nat.mul_le_mul_right _ (by omega)

theorem lower_le_scaled (m : Magnitude) : m.lower ≤ m.scaled := by
  unfold lower scaled
  apply Nat.mul_le_mul_right
  exact Nat.mul_le_mul_right _ (by omega)

theorem IsRounded.attracts (h : m.IsRounded d) : m.Attracts d.numerator (10 ^ 324) := by
  have hlower := m.scaled_le_lower_add
  have hupper := m.upper_eq
  have hscaled := m.scaled_eq
  unfold IsRounded at h
  rw [d.scaled_eq] at h
  generalize (10 : Nat) ^ 324 = b at *
  split at h
  · exact ⟨by omega, by omega, by omega⟩
  · exact ⟨by omega, by omega, by omega⟩

-- Strictly inside the interval the evenness does not matter.
theorem isRounded_of_lt (hlow : m.lower < d.scaled) (hhigh : d.scaled < m.upper) :
    m.IsRounded d := by
  unfold IsRounded
  split
  · exact ⟨hlow.le, hhigh.le⟩
  · exact ⟨hlow, hhigh⟩

theorem isRounded_of_nearest? {exponent : Nat} (h : m.nearest? exponent = some d) :
    m.IsRounded d := by
  simp only [nearest?] at h
  split at h
  · rename_i hbelow
    cases h
    exact hbelow.1
  · split at h
    · rename_i habove
      cases h
      exact habove
    · cases h

-- The finest grid is finer than the interval around any magnitude.
theorem finest_step_lt : 4 * 2 ^ 1074 < 2 * 10 ^ 324 := by
  decide +kernel

theorem exists_nearest?_zero (m : Magnitude) : ∃ d, m.nearest? 0 = some d := by
  have hone : Decimal.scaled ⟨1, 0⟩ = 4 * 2 ^ 1074 := by decide +kernel
  have habove : m.IsRounded ⟨(m.floor 0).digits + 1, 0⟩ := by
    have hstep := finest_step_lt
    have hunit : 10 ^ 324 ≤ 2 ^ m.exponent * 10 ^ 324 :=
      Nat.le_mul_of_pos_left _ (Nat.two_pow_pos _)
    have hlower := m.lower_le_scaled
    have hupper := m.upper_eq
    have hpos : 0 < 4 * 2 ^ 1074 := by decide +kernel
    have hfloor := Nat.div_add_mod' m.scaled (4 * 2 ^ 1074)
    have hmod := Nat.mod_lt m.scaled hpos
    have hscaled : Decimal.scaled ⟨(m.floor 0).digits + 1, 0⟩ =
        m.scaled / (4 * 2 ^ 1074) * (4 * 2 ^ 1074) + 4 * 2 ^ 1074 := by
      unfold floor
      rw [hone, Decimal.scaled, Nat.pow_eq, Nat.pow_eq]
      generalize (2 : Nat) ^ 1074 = w
      ring
    generalize (10 : Nat) ^ 324 = b at *
    generalize (4 * 2 ^ 1074 : Nat) = step at *
    exact isRounded_of_lt (by omega) (by omega)
  by_cases hbelow : m.IsRounded (m.floor 0) ∧
      (2 * (m.scaled % Decimal.scaled ⟨1, 0⟩) < Decimal.scaled ⟨1, 0⟩ ∨
        ¬ m.IsRounded ⟨(m.floor 0).digits + 1, 0⟩)
  · exact ⟨_, if_pos hbelow⟩
  · exact ⟨_, (if_neg hbelow).trans (if_pos habove)⟩

theorem isRounded_shortestFrom (m : Magnitude) (exponent : Nat) :
    m.IsRounded (m.shortestFrom exponent) := by
  induction exponent with
  | zero =>
      obtain ⟨d, hd⟩ := m.exists_nearest?_zero
      simp only [shortestFrom, hd, Option.getD_some]
      exact isRounded_of_nearest? hd
  | succ exponent ih =>
      simp only [shortestFrom]
      split
      · rename_i d hd
        exact isRounded_of_nearest? hd
      · exact ih

end Magnitude

-- The fields of a finite double are those of its magnitude.
theorem kind_finite {x : Double} {m : Magnitude} (h : x.kind = .finite m) :
    m.IsCanonical ∧ m.pattern = x.bits.toNat % 2 ^ 63 := by
  have hfields : x.bits.toNat % 2 ^ 63 = x.exponentField * 2 ^ 52 + x.fractionField := by
    unfold exponentField fractionField
    omega
  have hfraction : x.fractionField < 2 ^ 52 := Nat.mod_lt _ (by omega)
  rw [hfields]
  unfold kind at h
  by_cases hmax : x.exponentField = 2047
  · rw [if_pos hmax] at h
    split at h <;> cases h
  · rw [if_neg hmax] at h
    by_cases hzero : x.exponentField = 0
    · rw [if_pos hzero] at h
      cases h
      exact ⟨⟨by simp only; omega, Or.inr rfl⟩, by simp only [Magnitude.pattern]; omega⟩
    · rw [if_neg hzero] at h
      cases h
      exact ⟨⟨by simp only; omega, Or.inl (by simp only; omega)⟩,
        by simp only [Magnitude.pattern]; omega⟩

end SwiftSource.Double

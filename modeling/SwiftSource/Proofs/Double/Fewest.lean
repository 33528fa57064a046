import Mathlib.Order.Bounds.Basic
import SwiftSource.Proofs.Double.Nearest
import SwiftSource.Proofs.Double.Significant
import SwiftSource.Proofs.Text.Expr

namespace SwiftSource.Double

theorem ten_pow_pos : 0 < 10 ^ 324 := by
  decide +kernel

namespace Decimal

theorem step_pos (exponent : Nat) : 0 < scaled ⟨1, exponent⟩ := by
  have hunit : 0 < 2 ^ 1074 := by decide +kernel
  have hpower : 0 < 10 ^ exponent := Nat.pow_pos (by decide)
  rw [scaled_eq, numerator, Nat.one_mul]
  generalize (2 : Nat) ^ 1074 = w at *
  positivity

theorem scaled_le_scaled {digits digits' : Nat} (h : digits ≤ digits') (exponent : Nat) :
    scaled ⟨digits, exponent⟩ ≤ scaled ⟨digits', exponent⟩ := by
  rw [scaled_eq_mul digits, scaled_eq_mul digits']
  exact Nat.mul_le_mul_right _ h

end Decimal

namespace Magnitude

variable {m : Magnitude} {d d' : Decimal} {exponent : Nat}

theorem place_pos (m : Magnitude) : 0 < 2 ^ m.exponent * 10 ^ 324 :=
  Nat.mul_pos (Nat.two_pow_pos m.exponent) ten_pow_pos

theorem lower_eq (m : Magnitude) :
    m.lower = (4 * m.significand - m.quartersBelow) * (2 ^ m.exponent * 10 ^ 324) :=
  Nat.mul_assoc _ _ _

theorem lower_add_eq (hpos : 0 < m.significand) :
    m.lower + m.quartersBelow * (2 ^ m.exponent * 10 ^ 324) = m.scaled := by
  have hquarters := m.quartersBelow_le
  have hsum : 4 * m.significand - m.quartersBelow + m.quartersBelow = 4 * m.significand := by
    omega
  rw [lower_eq, scaled_eq, ← Nat.add_mul, hsum, Nat.mul_assoc]

theorem scaled_lt_upper (m : Magnitude) : m.scaled < m.upper := by
  have hplace := m.place_pos
  have hupper := m.upper_eq
  omega

theorem lower_lt_scaled (hpos : 0 < m.significand) : m.lower < m.scaled := by
  have hplace := Nat.mul_pos m.quartersBelow_pos m.place_pos
  have hlower := lower_add_eq hpos
  omega

theorem lower_pos (hpos : 0 < m.significand) : 0 < m.lower := by
  have hquarters := m.quartersBelow_le
  rw [lower_eq]
  exact Nat.mul_pos (by omega) m.place_pos

-- Only around zero would the lower halfway point be cut off.
theorem Attracts.isRounded (hpos : 0 < m.significand)
    (h : m.Attracts d.numerator (10 ^ 324)) : m.IsRounded d := by
  obtain ⟨low, high, odd⟩ := h
  have hlower := lower_add_eq hpos
  have hupper := m.upper_eq
  have hscaled := m.scaled_eq
  unfold IsRounded
  rw [d.scaled_eq]
  generalize (10 : Nat) ^ 324 = b at *
  split
  · omega
  · have hodd := odd (by omega)
    omega

-- Between a decimal that rounds to `m` and `m` itself, all decimals round to `m`.
theorem IsRounded.of_ge (h : m.IsRounded d) (hle : d.scaled ≤ d'.scaled)
    (hm : d'.scaled ≤ m.scaled) : m.IsRounded d' := by
  have hupper := m.scaled_lt_upper
  unfold IsRounded at h ⊢
  split at h
  · rename_i heven
    rw [if_pos heven]
    omega
  · rename_i hodd
    rw [if_neg hodd]
    omega

theorem IsRounded.of_le (hpos : 0 < m.significand) (h : m.IsRounded d)
    (hle : d'.scaled ≤ d.scaled) (hm : m.scaled ≤ d'.scaled) : m.IsRounded d' := by
  have hlower := lower_lt_scaled hpos
  unfold IsRounded at h ⊢
  split at h
  · rename_i heven
    rw [if_pos heven]
    omega
  · rename_i hodd
    rw [if_neg hodd]
    omega

-- If neither neighbour of `m` on a grid rounds to `m`, nothing on the grid does.
theorem not_isRounded_of_nearest? (hpos : 0 < m.significand)
    (h : m.nearest? exponent = none) (digits : Nat) : ¬ m.IsRounded ⟨digits, exponent⟩ := by
  intro hrounded
  have hfloor : (m.floor exponent).scaled ≤ m.scaled := by
    rw [floor, Decimal.scaled_eq_mul]
    exact Nat.div_mul_le_self _ _
  have habove : m.scaled ≤ Decimal.scaled ⟨(m.floor exponent).digits + 1, exponent⟩ := by
    rw [Decimal.scaled_eq_mul, Nat.mul_comm]
    exact (Nat.lt_mul_div_succ m.scaled (Decimal.step_pos exponent)).le
  simp only [nearest?] at h
  split at h
  · cases h
  · rename_i hbelow
    split at h
    · cases h
    · rename_i hnot
      rcases Nat.lt_or_ge (m.floor exponent).digits digits with hlt | hge
      · exact hnot (hrounded.of_le hpos (Decimal.scaled_le_scaled hlt exponent) habove)
      · have hle := Decimal.scaled_le_scaled hge exponent
        exact hbelow ⟨hrounded.of_ge hle hfloor, Or.inr hnot⟩

theorem exponent_of_nearest? (h : m.nearest? exponent = some d) : d.exponent = exponent := by
  simp only [nearest?] at h
  split at h
  · cases h
    rfl
  · split at h
    · cases h
      rfl
    · cases h

-- The search comes down from `top` and passes only grids without an answer.
theorem nearest?_eq_none_of_shortestFrom (top : Nat)
    (hlow : (m.shortestFrom top).exponent < exponent) (hhigh : exponent ≤ top) :
    m.nearest? exponent = none := by
  induction top with
  | zero => omega
  | succ top ih =>
      simp only [shortestFrom] at hlow
      split at hlow
      · rename_i d hd
        rw [exponent_of_nearest? hd] at hlow
        omega
      · rename_i hnone
        rcases Nat.lt_or_ge top exponent with hlt | hge
        · have htop : exponent = top + 1 := by omega
          rw [htop]
          exact hnone
        · exact ih hlow hge

-- Beyond the first grid of the search one step leads past every finite double.
theorem upper_lt_step (hm : m.IsFinite) (htop : 632 < exponent) :
    m.upper < Decimal.scaled ⟨1, exponent⟩ := by
  have hpower : 2 ^ m.exponent ≤ 2 ^ 2045 := pow_le_pow_right₀ (by decide) hm.exponent_le
  have hgrid : 10 ^ 633 ≤ 10 ^ exponent := pow_le_pow_right₀ (by decide) htop
  have hlast : 2 ^ 55 * 2 ^ 2045 * 10 ^ 324 < 4 * (10 ^ 633 * 2 ^ 1074) := by decide +kernel
  have hlt := hm.canonical.1
  rw [Decimal.scaled_eq, Decimal.numerator, Nat.one_mul]
  simp only [upper, Nat.pow_eq]
  generalize (10 : Nat) ^ 324 = b at *
  generalize (2 : Nat) ^ 1074 = w at *
  generalize (2 : Nat) ^ 2045 = p at *
  generalize (10 : Nat) ^ 633 = t at *
  calc (4 * m.significand + 2) * 2 ^ m.exponent * b
      ≤ 2 ^ 55 * p * b :=
        Nat.mul_le_mul_right b (Nat.mul_le_mul (by omega) hpower)
    _ < 4 * (t * w) := hlast
    _ ≤ 4 * (10 ^ exponent * w) := Nat.mul_le_mul_left 4 (Nat.mul_le_mul_right w hgrid)

theorem IsRounded.lower_le (h : m.IsRounded d) : m.lower ≤ d.scaled := by
  unfold IsRounded at h
  split at h <;> omega

theorem IsRounded.le_upper (h : m.IsRounded d) : d.scaled ≤ m.upper := by
  unfold IsRounded at h
  split at h <;> omega

-- The shortest decimal lies on the coarsest grid.
theorem not_isRounded_of_coarser (hm : m.IsFinite) (hpos : 0 < m.significand)
    (hcoarser : m.shortest.exponent < exponent) (digits : Nat) :
    ¬ m.IsRounded ⟨digits, exponent⟩ := by
  rcases Nat.lt_or_ge 632 exponent with htop | htop
  · intro h
    have hlower := lower_pos hpos
    have hle := h.lower_le
    have hge := h.le_upper
    have hupper := upper_lt_step hm htop
    rcases Nat.eq_zero_or_pos digits with rfl | hdigits
    · rw [Decimal.scaled_eq_mul, Nat.zero_mul] at hle
      omega
    · have hstep := Decimal.scaled_le_scaled (show 1 ≤ digits from hdigits) exponent
      omega
  · have hnone := nearest?_eq_none_of_shortestFrom 632 hcoarser htop
    exact not_isRounded_of_nearest? hpos hnone digits

end Magnitude

namespace Decimal

theorem value_eq_units (d : Decimal) : d.value = d.numerator / (10 ^ 324 : Nat) * unit := by
  have hunit : (2 : ℚ) ^ 1074 ≠ 0 := pow_ne_zero _ two_ne_zero
  rw [value, numerator, unit]
  push_cast
  generalize (2 : ℚ) ^ 1074 = w at *
  generalize (10 : ℚ) ^ 324 = b
  field_simp

theorem value_eq_zpow (digits exponent : Nat) :
    value ⟨digits, exponent⟩ = digits * 10 ^ ((exponent : ℤ) - (324 : Nat)) := by
  rw [value, zpow_sub₀ (by norm_num), zpow_natCast, zpow_natCast, mul_div_assoc]

theorem hasDigits {d : Decimal} {count : Nat} (h : d.digits < 10 ^ count) :
    HasDigits count d.value :=
  ⟨d.digits, _, h, value_eq_zpow d.digits d.exponent⟩

theorem value_power (count exponent : Nat) :
    value ⟨1, count + exponent⟩ = 10 ^ count * 10 ^ ((exponent : ℤ) - (324 : Nat)) := by
  rw [value_eq_zpow, Nat.cast_one, one_mul, Nat.cast_add, add_sub_assoc,
    zpow_add₀ (by norm_num), zpow_natCast]

-- A power of ten is above all that has fewer digits on the same grid or on a finer one.
theorem le_value_power {digits count exponent : Nat} {power : ℤ} (hdigits : digits < 10 ^ count)
    (hfiner : power ≤ (exponent : ℤ) - (324 : Nat)) :
    digits * 10 ^ power ≤ value ⟨1, count + exponent⟩ := by
  have hcast : (digits : ℚ) ≤ 10 ^ count := by exact_mod_cast hdigits.le
  have hgrid := zpow_le_zpow_right₀ (show (1 : ℚ) ≤ 10 by norm_num) hfiner
  rw [value_power]
  exact mul_le_mul hcast hgrid (zpow_nonneg (by norm_num) _) (by positivity)

theorem value_power_le {d : Decimal} {count : Nat} (hmany : 10 ^ count ≤ d.digits) :
    value ⟨1, count + d.exponent⟩ ≤ d.value := by
  have hcast : (10 : ℚ) ^ count ≤ d.digits := by exact_mod_cast hmany
  rw [value_power, value_eq_zpow d.digits d.exponent]
  exact mul_le_mul_of_nonneg_right hcast (zpow_nonneg (by norm_num) _)

end Decimal

namespace Magnitude

variable {m : Magnitude} {d : Decimal} {q : ℚ}

theorem IsRounded.isNearest (hm : m.IsFinite) (h : m.IsRounded d) : m.IsNearest d.value := by
  rw [d.value_eq_units, isNearest_iff_attracts hm ten_pow_pos]
  exact h.attracts

theorem IsNearest.isRounded (hm : m.IsFinite) (hpos : 0 < m.significand)
    (h : m.IsNearest d.value) : m.IsRounded d := by
  rw [d.value_eq_units, isNearest_iff_attracts hm ten_pow_pos] at h
  exact Magnitude.Attracts.isRounded hpos h

theorem not_isNearest_of_coarser (hm : m.IsFinite) (hpos : 0 < m.significand)
    {digits exponent : Nat} (hcoarser : m.shortest.exponent < exponent) :
    ¬ m.IsNearest (Decimal.value ⟨digits, exponent⟩) :=
  fun h => not_isRounded_of_coarser hm hpos hcoarser digits (h.isRounded hm hpos)

-- A number with fewer digits lies on a coarser grid, or a power of ten stands between it and
-- the shortest decimal. The power of ten then rounds to `m` too, and it lies on a coarser grid.
theorem digits_shortest_lt (hm : m.IsFinite) (hpos : 0 < m.significand) {count : Nat}
    (hq : m.IsNearest q) (h : HasDigits count q) : m.shortest.digits < 10 ^ count := by
  obtain ⟨digits, power, hdigits, rfl⟩ := h
  by_contra hmany
  rcases lt_or_ge ((m.shortest.exponent : ℤ) - (324 : Nat)) power with hcoarser | hfiner
  · obtain ⟨exponent, hexponent⟩ := Int.eq_ofNat_of_zero_le (show 0 ≤ power + (324 : Nat) by omega)
    have hpower : power = (exponent : ℤ) - (324 : Nat) := by omega
    rw [hpower, ← Decimal.value_eq_zpow] at hq
    exact not_isNearest_of_coarser hm hpos (by omega) hq
  · cases count with
    | zero =>
        have hzero : digits = 0 := by omega
        have hvalue : digits * 10 ^ power = Decimal.value ⟨0, m.shortest.exponent + 1⟩ := by
          rw [Decimal.value_eq_zpow, hzero, Nat.cast_zero, zero_mul, zero_mul]
        rw [hvalue] at hq
        exact not_isNearest_of_coarser hm hpos (Nat.lt_succ_self _) hq
    | succ count =>
        have hshortest : m.IsNearest m.shortest.value :=
          (m.isRounded_shortestFrom 632).isNearest hm
        have hbelow := Decimal.le_value_power hdigits hfiner
        have habove := Decimal.value_power_le (Nat.le_of_not_lt hmany)
        have hpower := hq.between hm hshortest hbelow habove
        exact not_isNearest_of_coarser hm hpos (by omega) hpower

-- What is written has no more digits than anything else that rounds to `m`.
theorem hasDigits_printed (hm : m.IsFinite) {count : Nat} (hq : m.IsNearest q)
    (h : HasDigits count q) : HasDigits count m.printed.value := by
  apply Decimal.hasDigits
  unfold printed
  split
  · exact Nat.pow_pos (by decide)
  · exact digits_shortest_lt hm (by omega) hq h

end Magnitude

theorem toList_signedNumeral (isNegative : Bool) (m : Magnitude) :
    (signedNumeral isNegative m).toList = (if isNegative then ['-'] else []) ++ m.numeral := by
  cases isNegative with
  | true => rw [signedNumeral, if_pos rfl, if_pos rfl, String.toList_ofList, List.singleton_append]
  | false => rw [signedNumeral, if_neg (by decide), if_neg (by decide), String.toList_ofList,
      List.nil_append]

theorem text_finite {x : Double} {m : Magnitude} (h : x.kind = .finite m) (o : Indentation) :
    (Literal.double x).text o = signedNumeral x.isNegative m := by
  rw [Literal.text_eq_token, Literal.token, Token.text_word, spelling, h]

end Double

open Double

-- A finite double is written as a numeral with a point or a power of ten. The double is the
-- only one that the written number is rounded to, no number with fewer digits is rounded to it,
-- and no other finite double has the same text.
theorem finite_double_text_shortest {x : Double} {m : Magnitude} (h : x.kind = .finite m)
    (o : Indentation) :
    ∃ n : Numeral, n.IsWritten ∧ (n.fraction ≠ [] ∨ n.power ≠ []) ∧
      ((Literal.double x).text o).toList = (if x.isNegative then ['-'] else []) ++ n.chars ∧
      (∀ y, RoundsTo x.isNegative n.value y ↔ y = x) ∧
      IsLeast {count | ∃ q, HasDigits count q ∧ RoundsTo x.isNegative q x}
        n.significant.length ∧
      ∀ y m', y.kind = .finite m' → (Literal.double y).text o = (Literal.double x).text o →
        y = x := by
  have hm := Magnitude.isFinite_of_kind h
  obtain ⟨n, hn, hpart, hchars, hdenotes⟩ := m.printed.exists_numeral
  have hnearest : m.IsNearest n.value := by
    rw [hdenotes.value_eq]
    exact m.isRounded_printed.isNearest hm
  have hrounds : RoundsTo x.isNegative n.value x := ⟨rfl, m, h, hnearest⟩
  refine ⟨n, hn, hpart, ?_, fun y => ⟨fun hy => hy.unique hrounds, fun hy => hy ▸ hrounds⟩,
    ⟨⟨n.value, Numeral.hasDigits_value hn, hrounds⟩, ?_⟩, ?_⟩
  · rw [text_finite h, toList_signedNumeral, ← m.numeral_printed, hchars]
  · rintro count ⟨q, hdigits, -, m', hm', hq⟩
    cases h.symm.trans hm'
    apply Numeral.length_significant_le hn
    rw [hdenotes.value_eq]
    exact Magnitude.hasDigits_printed hm hq hdigits
  · intro y m' hy htext
    rw [text_finite hy, text_finite h] at htext
    rw [← ofText_signedNumeral hy, htext, ofText_signedNumeral h]

-- The double next to zero on the negative side gets by with one digit.
theorem finite_double_text_shortest_least :
    (Double.mk 0x8000000000000001).kind = .finite ⟨1, 0⟩ ∧
      (Literal.double ⟨0x8000000000000001⟩).text .tabs = "-5e-324" ∧
      (∀ y, RoundsTo true (5 * 10 ^ (-324 : ℤ)) y ↔ y = ⟨0x8000000000000001⟩) ∧
      IsLeast {count | ∃ q, HasDigits count q ∧ RoundsTo true q ⟨0x8000000000000001⟩} 1 := by
  have hkind : (Double.mk 0x8000000000000001).kind = .finite ⟨1, 0⟩ := by decide +kernel
  have htext : (Literal.double ⟨0x8000000000000001⟩).text .tabs = "-5e-324" := by decide +kernel
  obtain ⟨n, hn, -, hchars, hrounds, hleast, -⟩ := finite_double_text_shortest hkind .tabs
  have hsign : (Double.mk 0x8000000000000001).isNegative = true := by decide +kernel
  rw [htext, hsign] at hchars
  have hnumeral : ['5', 'e', '-', '3', '2', '4'] = n.chars := (List.cons.inj hchars).2
  have hscan : n = ⟨['5'], [], ['-', '3', '2', '4']⟩ := by
    rw [← hn.scan_chars, ← hnumeral]
    rfl
  have hvalue : n.value = 5 * 10 ^ (-324 : ℤ) := by
    rw [hscan]
    decide +kernel
  have hlength : n.significant.length = 1 := by
    rw [hscan]
    decide
  rw [hsign, hvalue] at hrounds
  rw [hsign, hlength] at hleast
  exact ⟨hkind, htext, hrounds, hleast⟩

end SwiftSource

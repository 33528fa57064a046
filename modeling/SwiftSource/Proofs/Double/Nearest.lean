import Mathlib.Algebra.Order.Field.Rat
import Mathlib.Tactic.FieldSimp
import Mathlib.Tactic.Positivity
import SwiftSource.Proofs.Double.Numeral

namespace SwiftSource.Double

-- The least positive double.
def unit : ℚ := 1 / 2 ^ 1074

-- Halfway between the largest double and the power of two behind it. From here on a number is
-- rounded to infinity.
def overflow : ℚ := 2 ^ 1024 - 2 ^ 970

namespace Magnitude

-- The number that a magnitude stands for.
def value (m : Magnitude) : ℚ :=
  m.significand * 2 ^ m.exponent * unit

-- The weight of the last bit of the significand.
def lastPlace (m : Magnitude) : ℚ :=
  2 ^ m.exponent * unit

-- No finite double is nearer to `q` than those with the magnitude `m`, and where another one
-- is as near, `m` has the even significand.
structure IsNearest (m : Magnitude) (q : ℚ) : Prop where
  nonneg : 0 ≤ q
  lt_overflow : q < overflow
  le {y : Double} {m' : Magnitude} (hy : y.kind = .finite m') : |q - m.value| ≤ |q - m'.value|
  even {y : Double} {m' : Magnitude} (hy : y.kind = .finite m') (hne : m' ≠ m)
    (heq : |q - m.value| = |q - m'.value|) : m.significand % 2 = 0

end Magnitude

-- The number with the given sign and the absolute value `q` is rounded to `x`.
def RoundsTo (isNegative : Bool) (q : ℚ) (x : Double) : Prop :=
  x.isNegative = isNegative ∧ ∃ m, x.kind = .finite m ∧ m.IsNearest q

theorem unit_pos : 0 < unit := by
  unfold unit
  positivity

theorem two_overflow : 2 * overflow = (2 * (2 ^ 53 - 1) + 1) * (2 ^ 2045 * unit) := by
  have hplace : (2 : ℚ) ^ 2045 * unit = 2 ^ 971 := by
    rw [unit, show (2 : ℚ) ^ 2045 = 2 ^ 971 * 2 ^ 1074 from pow_add 2 971 1074]
    rw [mul_one_div, mul_div_cancel_right₀ _ (by positivity)]
  have hpower : (2 : ℚ) ^ 1024 = 2 ^ 54 * 2 ^ 970 := pow_add 2 54 970
  have hhalf : (2 : ℚ) ^ 971 = 2 * 2 ^ 970 := pow_succ' 2 970
  rw [overflow, hplace, hpower, hhalf]
  generalize (2 : ℚ) ^ 970 = w
  ring

namespace Magnitude

variable {m m' : Magnitude} {q : ℚ}

theorem quartersBelow_pos (m : Magnitude) : 0 < m.quartersBelow := by
  unfold quartersBelow
  split <;> omega

theorem lastPlace_pos (m : Magnitude) : 0 < m.lastPlace :=
  mul_pos (by positivity) unit_pos

-- The magnitudes of the finite doubles.
structure IsFinite (m : Magnitude) : Prop where
  canonical : m.IsCanonical
  exponent_le : m.exponent ≤ 2045

theorem isFinite_of_kind {x : Double} (h : x.kind = .finite m) : m.IsFinite := by
  refine ⟨(kind_finite h).1, ?_⟩
  have hfield : x.exponentField < 2048 := Nat.mod_lt _ (by decide)
  unfold kind at h
  by_cases hmax : x.exponentField = 2047
  · rw [if_pos hmax] at h
    split at h <;> cases h
  · rw [if_neg hmax] at h
    split at h
    · cases h
      exact Nat.zero_le _
    · cases h
      simp only
      omega

-- The bits of the magnitude are those of a double without a sign.
theorem IsFinite.exists_double (h : m.IsFinite) : ∃ x : Double, x.kind = .finite m := by
  obtain ⟨significand, exponent⟩ := m
  obtain ⟨⟨hlt, hnormal⟩, hexponent⟩ := h
  simp only at hlt hnormal hexponent
  have hbits : (UInt64.ofNat (exponent * 2 ^ 52 + significand)).toNat =
      exponent * 2 ^ 52 + significand := by
    rw [UInt64.toNat_ofNat']
    omega
  refine ⟨⟨UInt64.ofNat (exponent * 2 ^ 52 + significand)⟩, ?_⟩
  unfold kind exponentField fractionField
  simp only [hbits]
  by_cases hsubnormal : significand < 2 ^ 52
  · have hzero : exponent = 0 := by omega
    subst hzero
    rw [if_neg (by omega), if_pos (by omega)]
    congr 2
    omega
  · rw [if_neg (by omega), if_neg (by omega)]
    congr 2 <;> omega

-- Another magnitude is at least one last place above or twice the way to the halfway point
-- below.
theorem IsCanonical.apart (hm : m.IsCanonical) (hm' : m'.IsCanonical) (hne : m' ≠ m) :
    m.significand * 2 ^ m.exponent + 2 ^ m.exponent ≤ m'.significand * 2 ^ m'.exponent ∨
    2 * (m'.significand * 2 ^ m'.exponent) + m.quartersBelow * 2 ^ m.exponent ≤
      2 * (m.significand * 2 ^ m.exponent) := by
  obtain ⟨s, e⟩ := m
  obtain ⟨s', e'⟩ := m'
  obtain ⟨hs, hnormal⟩ := hm
  obtain ⟨hs', hnormal'⟩ := hm'
  simp only at hs hnormal hs' hnormal' ⊢
  have hquarters := Nat.mul_le_mul_right (2 ^ e) (quartersBelow_le ⟨s, e⟩)
  rcases Nat.lt_trichotomy e e' with hlt | rfl | hgt
  · -- the other one has a leading bit, and it weighs more than all of `s`
    left
    have hstep : (s + 1) * 2 ^ e ≤ 2 ^ 53 * 2 ^ e := Nat.mul_le_mul_right _ hs
    have hpower : 2 ^ (e + 1) ≤ 2 ^ e' := Nat.pow_le_pow_right (by decide) hlt
    have hlarge : 2 ^ 52 * 2 ^ e' ≤ s' * 2 ^ e' := Nat.mul_le_mul_right _ (by omega)
    rw [Nat.succ_mul] at hstep
    rw [Nat.pow_succ] at hpower
    omega
  · have hdiffer : s' ≠ s := fun h => hne (by rw [h])
    rcases Nat.lt_or_gt_of_ne hdiffer with hless | hmore
    · right
      have hstep : (s' + 1) * 2 ^ e ≤ s * 2 ^ e := Nat.mul_le_mul_right _ hless
      rw [Nat.succ_mul] at hstep
      omega
    · left
      have hstep : (s + 1) * 2 ^ e ≤ s' * 2 ^ e := Nat.mul_le_mul_right _ hmore
      rwa [Nat.succ_mul] at hstep
  · right
    have hpower : 2 ^ (e' + 1) ≤ 2 ^ e := Nat.pow_le_pow_right (by decide) hgt
    have hsmall : (s' + 1) * 2 ^ e' ≤ 2 ^ 53 * 2 ^ e' := Nat.mul_le_mul_right _ hs'
    rw [Nat.succ_mul] at hsmall
    rw [Nat.pow_succ] at hpower
    rcases Nat.eq_or_lt_of_le (show 2 ^ 52 ≤ s by omega) with heq | hlt
    · subst heq
      have hone : quartersBelow ⟨2 ^ 52, e⟩ = 1 := if_pos ⟨rfl, by simp only; omega⟩
      rw [hone]
      omega
    · have hstep : (2 ^ 52 + 1) * 2 ^ e ≤ s * 2 ^ e := Nat.mul_le_mul_right _ hlt
      omega

theorem IsFinite.exists_above (h : m.IsFinite) :
    (∃ m' : Magnitude, m'.IsFinite ∧ m'.value = m.value + m.lastPlace) ∨
      2 * m.value + m.lastPlace = 2 * overflow := by
  obtain ⟨s, e⟩ := m
  obtain ⟨⟨hs, hnormal⟩, he⟩ := h
  simp only at hs hnormal he
  by_cases hcarry : s + 1 < 2 ^ 53
  · refine Or.inl ⟨⟨s + 1, e⟩, ⟨⟨hcarry, by simp only; omega⟩, he⟩, ?_⟩
    simp only [value, lastPlace]
    push_cast
    ring
  · have hs' : s = 2 ^ 53 - 1 := by omega
    subst hs'
    by_cases hlast : e + 1 ≤ 2045
    · refine Or.inl ⟨⟨2 ^ 52, e + 1⟩, ⟨⟨by norm_num, by simp⟩, hlast⟩, ?_⟩
      simp only [value, lastPlace, pow_succ]
      push_cast
      ring
    · right
      have he' : e = 2045 := by omega
      subst he'
      simp only [value, lastPlace, two_overflow]
      generalize (2 : ℚ) ^ 2045 = w
      push_cast
      ring

theorem IsFinite.exists_below (h : m.IsFinite) (hpos : 0 < m.significand) :
    ∃ m' : Magnitude, m'.IsFinite ∧
      2 * m'.value + m.quartersBelow * m.lastPlace = 2 * m.value := by
  obtain ⟨s, e⟩ := m
  obtain ⟨⟨hs, hnormal⟩, he⟩ := h
  simp only at hs hnormal he hpos
  by_cases hborrow : s = 2 ^ 52 ∧ 0 < e
  · obtain ⟨rfl, hexponent⟩ := hborrow
    obtain ⟨k, rfl⟩ : ∃ k, e = k + 1 := ⟨e - 1, by omega⟩
    refine ⟨⟨2 ^ 53 - 1, k⟩, ⟨⟨by simp, by simp⟩, by simp only; omega⟩, ?_⟩
    have hone : quartersBelow ⟨2 ^ 52, k + 1⟩ = 1 := if_pos ⟨rfl, hexponent⟩
    rw [hone]
    simp only [value, lastPlace, pow_succ]
    push_cast
    ring
  · refine ⟨⟨s - 1, e⟩, ⟨⟨by simp only; omega, by simp only; omega⟩, he⟩, ?_⟩
    have htwo : quartersBelow ⟨s, e⟩ = 2 := if_neg hborrow
    rw [htwo]
    simp only [value, lastPlace]
    rw [Nat.cast_sub hpos]
    push_cast
    ring

theorem IsFinite.value_apart (hm : m.IsFinite) (hm' : m'.IsFinite) (hne : m' ≠ m) :
    m.value + m.lastPlace ≤ m'.value ∨
      2 * m'.value + m.quartersBelow * m.lastPlace ≤ 2 * m.value := by
  simp only [value, lastPlace]
  rcases hm.canonical.apart hm'.canonical hne with habove | hbelow
  · left
    have hcast : (m.significand * 2 ^ m.exponent + 2 ^ m.exponent : ℚ) ≤
        m'.significand * 2 ^ m'.exponent := by exact_mod_cast habove
    have hscaled := mul_le_mul_of_nonneg_right hcast unit_pos.le
    linarith
  · right
    have hcast : (2 * (m'.significand * 2 ^ m'.exponent) + m.quartersBelow * 2 ^ m.exponent : ℚ) ≤
        2 * (m.significand * 2 ^ m.exponent) := by exact_mod_cast hbelow
    have hscaled := mul_le_mul_of_nonneg_right hcast unit_pos.le
    linarith

-- The number `q` lies between the halfway points around `m`, and on one of them only if the
-- significand is even.
structure Covers (m : Magnitude) (q : ℚ) : Prop where
  low : 4 * m.value ≤ 4 * q + m.quartersBelow * m.lastPlace
  high : 4 * q ≤ 4 * m.value + 2 * m.lastPlace
  odd : m.significand % 2 = 1 →
    4 * m.value ≠ 4 * q + m.quartersBelow * m.lastPlace ∧
    4 * q ≠ 4 * m.value + 2 * m.lastPlace

theorem covers_iff_attracts {a b : Nat} (hb : 0 < b) :
    m.Covers (a / b * unit) ↔ m.Attracts a b := by
  -- all that is compared is a whole multiple of `w`
  obtain ⟨w, hw⟩ : ∃ w, unit / (b : ℚ) = w := ⟨_, rfl⟩
  have hb' : (b : ℚ) ≠ 0 := by exact_mod_cast hb.ne'
  have hpos : 0 < w := by
    rw [← hw]
    exact div_pos unit_pos (by exact_mod_cast hb)
  have hunit : unit = b * w := by
    rw [← hw]
    field_simp
  have hnumber : a / b * unit = a * w := by
    rw [hunit]
    field_simp
  have hle (x y : Nat) : (x : ℚ) * w ≤ y * w ↔ x ≤ y := by
    rw [mul_le_mul_iff_left₀ hpos, Nat.cast_le]
  have heq (x y : Nat) : (x : ℚ) * w = y * w ↔ x = y := by
    rw [mul_left_inj' hpos.ne', Nat.cast_inj]
  have hvalue : 4 * m.value = (4 * (m.significand * (2 ^ m.exponent * b)) : Nat) * w := by
    rw [value, hunit]
    push_cast
    ring
  have hvalue_high : 4 * m.value + 2 * m.lastPlace =
      (4 * (m.significand * (2 ^ m.exponent * b)) + 2 * (2 ^ m.exponent * b) : Nat) * w := by
    rw [hvalue, lastPlace, hunit]
    push_cast
    ring
  have hnumber_high : 4 * (a / b * unit) = (4 * a : Nat) * w := by
    rw [hnumber]
    push_cast
    ring
  have hnumber_low : 4 * (a / b * unit) + m.quartersBelow * m.lastPlace =
      (4 * a + m.quartersBelow * (2 ^ m.exponent * b) : Nat) * w := by
    rw [hnumber_high, lastPlace, hunit]
    push_cast
    ring
  constructor
  · rintro ⟨low, high, odd⟩
    rw [hvalue, hnumber_low, hle] at low
    rw [hvalue_high, hnumber_high, hle] at high
    rw [hvalue_high, hnumber_low, hnumber_high, hvalue, Ne, heq, Ne, heq] at odd
    exact ⟨low, high, odd⟩
  · rintro ⟨low, high, odd⟩
    refine ⟨?_, ?_, ?_⟩
    · rwa [hvalue, hnumber_low, hle]
    · rwa [hvalue_high, hnumber_high, hle]
    · rwa [hvalue_high, hnumber_low, hnumber_high, hvalue, Ne, heq, Ne, heq]

theorem abs_sub_le_iff_of_lt {v v' : ℚ} (h : v < v') : |q - v| ≤ |q - v'| ↔ 2 * q ≤ v + v' := by
  rw [← sq_le_sq]
  constructor
  · intro hle
    nlinarith
  · intro hle
    nlinarith

theorem abs_sub_le_iff_of_gt {v v' : ℚ} (h : v' < v) : |q - v| ≤ |q - v'| ↔ v + v' ≤ 2 * q := by
  rw [← sq_le_sq]
  constructor
  · intro hle
    nlinarith
  · intro hle
    nlinarith

theorem abs_sub_eq_iff_of_ne {v v' : ℚ} (h : v ≠ v') : |q - v| = |q - v'| ↔ 2 * q = v + v' := by
  rw [abs_eq_abs]
  constructor
  · rintro (heq | heq)
    · exact absurd (by linarith) h
    · linarith
  · intro heq
    right
    linarith

theorem IsFinite.halfway_le (hm : m.IsFinite) {k : Nat} (hk : 2 * m.significand + 1 ≤ k) :
    2 * m.value + m.lastPlace ≤ k * (2 ^ 2045 * unit) := by
  have hpower : (2 : ℚ) ^ m.exponent ≤ 2 ^ 2045 :=
    pow_le_pow_right₀ (by norm_num) hm.exponent_le
  have hunit := unit_pos.le
  calc 2 * m.value + m.lastPlace
      = (2 * m.significand + 1) * (2 ^ m.exponent * unit) := by
        rw [value, lastPlace]
        ring
    _ ≤ k * (2 ^ m.exponent * unit) := by
        apply mul_le_mul_of_nonneg_right _ (mul_nonneg (by positivity) hunit)
        exact_mod_cast hk
    _ ≤ k * (2 ^ 2045 * unit) :=
        mul_le_mul_of_nonneg_left (mul_le_mul_of_nonneg_right hpower hunit) (Nat.cast_nonneg k)

-- The largest significand is odd, so the halfway point behind the largest double is left out.
theorem Covers.lt_overflow (hm : m.IsFinite) (h : m.Covers q) : q < overflow := by
  have hlt := hm.canonical.1
  have hhigh := h.high
  have hoverflow := two_overflow
  have hplace : 0 < (2 : ℚ) ^ 2045 * unit := mul_pos (pow_pos two_pos _) unit_pos
  rcases Nat.mod_two_eq_zero_or_one m.significand with heven | hodd
  · have hhalfway := hm.halfway_le (k := 2 * (2 ^ 53 - 2) + 1) (by omega)
    generalize (2 : ℚ) ^ 2045 * unit = w at *
    push_cast at hhalfway
    linarith
  · have hhalfway := hm.halfway_le (k := 2 * (2 ^ 53 - 1) + 1) (by omega)
    have hne := (h.odd hodd).2
    generalize (2 : ℚ) ^ 2045 * unit = w at *
    push_cast at hhalfway
    have hstrict := lt_of_le_of_ne hhigh hne
    linarith

theorem halfBelow_pos (m : Magnitude) : 0 < (m.quartersBelow : ℚ) * m.lastPlace :=
  mul_pos (by exact_mod_cast m.quartersBelow_pos) m.lastPlace_pos

theorem Covers.isNearest (hm : m.IsFinite) (hq : 0 ≤ q) (h : m.Covers q) : m.IsNearest q := by
  have hplace := m.lastPlace_pos
  have hbelow := m.halfBelow_pos
  obtain ⟨hlow, hhigh, hodd⟩ := h
  refine ⟨hq, Covers.lt_overflow hm ⟨hlow, hhigh, hodd⟩, ?_, ?_⟩
  · intro y m' hy
    by_cases hne : m' = m
    · rw [hne]
    · rcases hm.value_apart (isFinite_of_kind hy) hne with happart | happart
      · rw [abs_sub_le_iff_of_lt (by linarith)]
        linarith
      · rw [abs_sub_le_iff_of_gt (by linarith)]
        linarith
  · intro y m' hy hne heq
    by_contra heven
    obtain ⟨hnotLow, hnotHigh⟩ := hodd (by omega)
    rcases hm.value_apart (isFinite_of_kind hy) hne with happart | happart
    · rw [abs_sub_eq_iff_of_ne (by linarith)] at heq
      exact hnotHigh (by linarith)
    · rw [abs_sub_eq_iff_of_ne (by linarith)] at heq
      exact hnotLow (by linarith)

-- The neighbours are finite doubles too, so being nearest puts `q` between the halfway points.
theorem IsNearest.high (hm : m.IsFinite) (h : m.IsNearest q) :
    4 * q ≤ 4 * m.value + 2 * m.lastPlace ∧
      (m.significand % 2 = 1 → 4 * q ≠ 4 * m.value + 2 * m.lastPlace) := by
  have hplace := m.lastPlace_pos
  have hoverflow := h.lt_overflow
  rcases hm.exists_above with ⟨m', hm', hvalue⟩ | hlast
  · obtain ⟨y, hy⟩ := hm'.exists_double
    have hlt : m.value < m'.value := by linarith
    have hle := h.le hy
    rw [abs_sub_le_iff_of_lt hlt] at hle
    refine ⟨by linarith, fun hodd heq => ?_⟩
    have hne : m' ≠ m := by
      rintro rfl
      exact lt_irrefl _ hlt
    have heven := h.even hy hne ((abs_sub_eq_iff_of_ne hlt.ne).mpr (by linarith))
    omega
  · exact ⟨by linarith, fun _ => by linarith⟩

theorem IsNearest.low (hm : m.IsFinite) (h : m.IsNearest q) :
    4 * m.value ≤ 4 * q + m.quartersBelow * m.lastPlace ∧
      (m.significand % 2 = 1 → 4 * m.value ≠ 4 * q + m.quartersBelow * m.lastPlace) := by
  have hbelow := m.halfBelow_pos
  have hnonneg := h.nonneg
  rcases Nat.eq_zero_or_pos m.significand with hzero | hpos
  · have hvalue : m.value = 0 := by
      rw [value, hzero]
      simp
    rw [hvalue]
    exact ⟨by linarith, by omega⟩
  · obtain ⟨m', hm', hvalue⟩ := hm.exists_below hpos
    obtain ⟨y, hy⟩ := hm'.exists_double
    have hlt : m'.value < m.value := by linarith
    have hle := h.le hy
    rw [abs_sub_le_iff_of_gt hlt] at hle
    refine ⟨by linarith, fun hodd heq => ?_⟩
    have hne : m' ≠ m := by
      rintro rfl
      exact lt_irrefl _ hlt
    have heven := h.even hy hne ((abs_sub_eq_iff_of_ne hlt.ne').mpr (by linarith))
    omega

theorem IsNearest.covers (hm : m.IsFinite) (h : m.IsNearest q) : m.Covers q :=
  ⟨(h.low hm).1, (h.high hm).1, fun hodd => ⟨(h.low hm).2 hodd, (h.high hm).2 hodd⟩⟩

-- What is rounded to `m` lies together.
theorem IsNearest.between {q' p : ℚ} (hm : m.IsFinite) (h : m.IsNearest q) (h' : m.IsNearest q')
    (hle : q ≤ p) (hle' : p ≤ q') : m.IsNearest p := by
  obtain ⟨hlow, -, hodd⟩ := h.covers hm
  obtain ⟨-, hhigh, hodd'⟩ := h'.covers hm
  refine Covers.isNearest hm (h.nonneg.trans hle) ⟨by linarith, by linarith, fun hs => ⟨?_, ?_⟩⟩
  · have hstrict := lt_of_le_of_ne hlow (hodd hs).1
    linarith
  · have hstrict := lt_of_le_of_ne hhigh (hodd' hs).2
    linarith

theorem isNearest_iff_attracts (hm : m.IsFinite) {a b : Nat} (hb : 0 < b) :
    m.IsNearest (a / b * unit) ↔ m.Attracts a b := by
  rw [← covers_iff_attracts hb]
  have hnonneg : 0 ≤ (a / b * unit : ℚ) := mul_nonneg (by positivity) unit_pos.le
  exact ⟨IsNearest.covers hm, Covers.isNearest hm hnonneg⟩

end Magnitude

theorem exists_units {q : ℚ} (hq : 0 ≤ q) : ∃ a b : Nat, 0 < b ∧ q = a / b * unit := by
  refine ⟨q.num.toNat * 2 ^ 1074, q.den, q.den_pos, ?_⟩
  have hnum : ((q.num.toNat : ℤ) : ℚ) = q.num := by
    rw [Int.toNat_of_nonneg (Rat.num_nonneg.mpr hq)]
  have hpower : (2 : ℚ) ^ 1074 ≠ 0 := pow_ne_zero _ two_ne_zero
  rw [unit, Nat.cast_mul, ← Int.cast_natCast (q.num.toNat), hnum, Nat.cast_pow, Nat.cast_ofNat]
  generalize (2 : ℚ) ^ 1074 = w at *
  field_simp
  exact q.mul_den_eq_num

-- A number is rounded to one double only.
theorem RoundsTo.unique {isNegative : Bool} {q : ℚ} {x y : Double}
    (hx : RoundsTo isNegative q x) (hy : RoundsTo isNegative q y) : x = y := by
  obtain ⟨hsign, m, hkind, hnearest⟩ := hx
  obtain ⟨hsign', m', hkind', hnearest'⟩ := hy
  obtain ⟨a, b, hb, rfl⟩ := exists_units hnearest.nonneg
  have hm := Magnitude.isFinite_of_kind hkind
  have hm' := Magnitude.isFinite_of_kind hkind'
  rw [Magnitude.isNearest_iff_attracts hm hb] at hnearest
  rw [Magnitude.isNearest_iff_attracts hm' hb] at hnearest'
  have hbits : x.bits.toNat % 2 ^ 63 = y.bits.toNat % 2 ^ 63 := by
    rw [← (kind_finite hkind).2, ← (kind_finite hkind').2,
      ← hnearest.pattern_eq hb hm.canonical, ← hnearest'.pattern_eq hb hm'.canonical]
  rw [← ofPattern_eq x, ← ofPattern_eq y, hsign, hsign', hbits]

end SwiftSource.Double

import SwiftSource.Proofs.Double.Reading

namespace SwiftSource.Double

open Parse

namespace Decimal

-- The numeral stands for the same number. Trailing zeros may have moved into the exponent.
def SameValue (d d' : Decimal) : Prop :=
  d.digits * 10 ^ d.exponent = d'.digits * 10 ^ d'.exponent

theorem SameValue.numerator_eq {d d' : Decimal} (h : d.SameValue d') :
    d.numerator = d'.numerator := by
  unfold Decimal.numerator
  rw [h]

end Decimal

-- What is written has the value of `d`, and its last digit is no finer than `10 ^ -324`.
def Numeral.Denotes (n : Numeral) (d : Decimal) : Prop :=
  ∃ exponent : Nat, 324 + signedValue n.power - n.fraction.length = exponent ∧
    Decimal.SameValue ⟨Nat.ofDigitChars 10 (n.whole ++ n.fraction) 0, exponent⟩ d

theorem Numeral.Denotes.sameValue {n : Numeral} {d : Decimal} (h : n.Denotes d) :
    n.decimal.SameValue d := by
  obtain ⟨exponent, hexponent, hsame⟩ := h
  unfold Numeral.decimal
  rw [hexponent, Int.toNat_natCast]
  exact hsame

namespace Decimal

variable {ds : List Char} {exponent : Nat}

theorem ofDigitChars_snoc_zeros (ds : List Char) (k : Nat) :
    Nat.ofDigitChars 10 (ds ++ List.replicate k '0') 0 = 10 ^ k * Nat.ofDigitChars 10 ds 0 := by
  rw [Nat.ofDigitChars_append, Nat.ofDigitChars_replicate_zero]

-- The point stands in front of all digits.
theorem positional_small (hds : ∀ c ∈ ds, c.isDigit = true) (hne : ds ≠ [])
    (hpoint : ds.length + exponent ≤ 324) :
    ∃ n : Numeral, n.IsWritten ∧ n.fraction ≠ [] ∧
      n.chars = positional ds (ds.length + exponent) ∧
      n.Denotes ⟨Nat.ofDigitChars 10 ds 0, exponent⟩ := by
  have hzeros : ∀ c ∈ List.replicate (324 - (ds.length + exponent)) '0' ++ ds,
      c.isDigit = true := by
    intro c hc
    rcases List.mem_append.mp hc with hc | hc
    · rw [List.eq_of_mem_replicate hc]
      rfl
    · exact hds c hc
  have hfraction : List.replicate (324 - (ds.length + exponent)) '0' ++ ds ≠ [] := by
    simp [hne]
  refine ⟨⟨['0'], _, []⟩, ⟨by simp, by simp, hzeros, Or.inl rfl⟩, hfraction, ?_, ?_⟩
  · unfold positional Numeral.chars
    rw [if_pos hpoint, Numeral.marked_of_ne_nil '.' hfraction, Numeral.marked_nil,
      List.append_nil]
    rfl
  · refine ⟨exponent, ?_, ?_⟩
    · simp only [signedValue, List.length_append, List.length_replicate, Nat.ofDigitChars_nil]
      omega
    · simp [SameValue, Nat.ofDigitChars_append, Nat.ofDigitChars_cons]

-- The point stands behind all digits, and zeros fill the gap.
theorem positional_large (hds : ∀ c ∈ ds, c.isDigit = true) (hne : ds ≠ [])
    (hpoint : 324 ≤ exponent) :
    ∃ n : Numeral, n.IsWritten ∧ n.fraction ≠ [] ∧
      n.chars = positional ds (ds.length + exponent) ∧
      n.Denotes ⟨Nat.ofDigitChars 10 ds 0, exponent⟩ := by
  have hwhole : ∀ c ∈ ds ++ List.replicate (exponent - 324) '0', c.isDigit = true := by
    intro c hc
    rcases List.mem_append.mp hc with hc | hc
    · exact hds c hc
    · rw [List.eq_of_mem_replicate hc]
      rfl
  have hlength : 0 < ds.length := List.length_pos_iff.mpr hne
  refine ⟨⟨_, ['0'], []⟩, ⟨by simp [hne], hwhole, by simp, Or.inl rfl⟩, by simp, ?_, ?_⟩
  · have hgap : ds.length + exponent - 324 - ds.length = exponent - 324 := by omega
    unfold positional
    rw [if_neg (by omega), if_pos (by omega), hgap]
    simp [Numeral.chars]
  · have hvalue : Nat.ofDigitChars 10 (ds ++ List.replicate (exponent - 324) '0' ++ ['0']) 0 =
        10 ^ (exponent - 324 + 1) * Nat.ofDigitChars 10 ds 0 := by
      rw [List.append_assoc, ← List.replicate_succ', ofDigitChars_snoc_zeros]
    have hpow : exponent - 324 + 1 + 323 = exponent := by omega
    refine ⟨323, rfl, ?_⟩
    simp only [SameValue, hvalue]
    rw [Nat.mul_right_comm, ← Nat.pow_add, hpow, Nat.mul_comm]

-- The point stands among the digits.
theorem positional_middle (hds : ∀ c ∈ ds, c.isDigit = true)
    (hlow : 324 < ds.length + exponent) (hhigh : exponent < 324) :
    ∃ n : Numeral, n.IsWritten ∧ n.fraction ≠ [] ∧
      n.chars = positional ds (ds.length + exponent) ∧
      n.Denotes ⟨Nat.ofDigitChars 10 ds 0, exponent⟩ := by
  obtain ⟨k, hk⟩ : ∃ k, ds.length + exponent - 324 = k := ⟨_, rfl⟩
  have hdrop : ds.drop k ≠ [] := by
    rw [Ne, List.drop_eq_nil_iff]
    omega
  have htake : ds.take k ≠ [] := by
    rw [Ne, List.take_eq_nil_iff]
    rintro (h | h)
    · omega
    · rw [h, List.length_nil] at hlow
      omega
  refine ⟨⟨ds.take k, ds.drop k, []⟩, ⟨htake, fun c hc => hds c (List.mem_of_mem_take hc),
    fun c hc => hds c (List.mem_of_mem_drop hc), Or.inl rfl⟩, hdrop, ?_, ?_⟩
  · unfold positional Numeral.chars
    rw [if_neg (by omega), hk, if_neg (by omega), Numeral.marked_of_ne_nil '.' hdrop,
      Numeral.marked_nil, List.append_nil]
  · refine ⟨exponent, ?_, ?_⟩
    · simp only [signedValue, List.length_drop, Nat.ofDigitChars_nil]
      omega
    · simp only [SameValue, List.take_append_drop]

theorem positional_numeral (hds : ∀ c ∈ ds, c.isDigit = true) (hne : ds ≠ [])
    (exponent : Nat) :
    ∃ n : Numeral, n.IsWritten ∧ n.fraction ≠ [] ∧
      n.chars = positional ds (ds.length + exponent) ∧
      n.Denotes ⟨Nat.ofDigitChars 10 ds 0, exponent⟩ := by
  rcases Nat.lt_or_ge 324 (ds.length + exponent) with hlow | hlow
  · rcases Nat.lt_or_ge exponent 324 with hhigh | hhigh
    · exact positional_middle hds hlow hhigh
    · exact positional_large hds hne hhigh
  · exact positional_small hds hne hlow

-- The power of ten in the exponent form.
theorem isWritten_power (k : Int) :
    ∃ ds, ds ≠ [] ∧ (∀ c ∈ ds, c.isDigit = true) ∧
      ((toString k).toList = ds ∨ (toString k).toList = '-' :: ds) := by
  rcases Int.lt_or_le k 0 with hk | hk
  · exact ⟨_, Nat.toDigits_ne_nil, fun c => isDigit_of_mem_toDigits,
      Or.inr (toList_toString_of_neg hk)⟩
  · exact ⟨_, Nat.toDigits_ne_nil, fun c => isDigit_of_mem_toDigits,
      Or.inl (toList_toString_of_nonneg hk)⟩

theorem toList_toString_ne_nil (k : Int) : (toString k).toList ≠ [] := by
  obtain ⟨ds, hne, -, hk | hk⟩ := isWritten_power k
  · rw [hk]
    exact hne
  · rw [hk]
    exact List.cons_ne_nil _ _

theorem scientific_numeral (hds : ∀ c ∈ ds, c.isDigit = true) (hne : ds ≠ [])
    (exponent : Nat) :
    ∃ n : Numeral, n.IsWritten ∧ n.power ≠ [] ∧
      n.chars = scientific ds (ds.length + exponent) ∧
      n.Denotes ⟨Nat.ofDigitChars 10 ds 0, exponent⟩ := by
  cases ds with
  | nil => exact absurd rfl hne
  | cons first rest =>
      have hrest : ∀ c ∈ rest, c.isDigit = true := fun c hc => hds c (List.mem_cons_of_mem _ hc)
      obtain ⟨k, hk⟩ : ∃ k : Int, (((first :: rest).length + exponent : Nat) : Int) - 325 = k :=
        ⟨_, rfl⟩
      have hpower := toList_toString_ne_nil k
      refine ⟨⟨[first], rest, (toString k).toList⟩,
        ⟨by simp, by simpa using hds first (by simp), hrest, Or.inr (isWritten_power k)⟩,
        hpower, ?_, ?_⟩
      · unfold Numeral.chars scientific
        rw [Numeral.marked_of_ne_nil 'e' hpower, hk]
        cases rest with
        | nil => rfl
        | cons second rest => rfl
      · refine ⟨exponent, ?_, ?_⟩
        · simp only [signedValue_toString, ← hk, List.length_cons]
          omega
        · simp only [SameValue, List.singleton_append]

-- Every decimal is written with a point or a power, and the writing keeps its value.
theorem exists_numeral (d : Decimal) :
    ∃ n : Numeral, n.IsWritten ∧ (n.fraction ≠ [] ∨ n.power ≠ []) ∧ n.chars = d.numeral ∧
      n.Denotes d := by
  have hds : ∀ c ∈ Nat.toDigits 10 d.digits, c.isDigit = true :=
    fun c => isDigit_of_mem_toDigits
  have hvalue : Nat.ofDigitChars 10 (Nat.toDigits 10 d.digits) 0 = d.digits :=
    Nat.ofDigitChars_ten_toDigits
  simp only [numeral]
  split
  · obtain ⟨n, hn, hpart, hchars, hdenotes⟩ :=
      positional_numeral hds Nat.toDigits_ne_nil d.exponent
    rw [hvalue] at hdenotes
    exact ⟨n, hn, Or.inl hpart, hchars, hdenotes⟩
  · obtain ⟨n, hn, hpart, hchars, hdenotes⟩ :=
      scientific_numeral hds Nat.toDigits_ne_nil d.exponent
    rw [hvalue] at hdenotes
    exact ⟨n, hn, Or.inr hpart, hchars, hdenotes⟩

end Decimal

namespace Magnitude

-- The decimal that is written for a magnitude.
def printed (m : Magnitude) : Decimal :=
  if m.significand = 0 then ⟨0, 323⟩ else m.shortest

theorem numeral_printed (m : Magnitude) : m.printed.numeral = m.numeral := by
  unfold printed numeral
  split
  · decide
  · rfl

theorem isRounded_printed (m : Magnitude) : m.IsRounded m.printed := by
  unfold printed
  split
  · rename_i hzero
    have hlower : m.lower = 0 := by
      unfold lower
      exact Nat.mul_eq_zero.mpr (Or.inl (Nat.mul_eq_zero.mpr (Or.inl (by omega))))
    have hscaled : Decimal.scaled ⟨0, 323⟩ = 0 :=
      (Decimal.scaled_eq_mul 0 323).trans (Nat.zero_mul _)
    rw [IsRounded, hzero, if_pos rfl, hlower, hscaled]
    exact ⟨le_rfl, Nat.zero_le _⟩
  · exact m.isRounded_shortestFrom 632

-- The numeral of a magnitude reads back to its bits.
theorem exists_numeral {m : Magnitude} (hc : m.IsCanonical) :
    ∃ n : Numeral, n.IsWritten ∧ (n.fraction ≠ [] ∨ n.power ≠ []) ∧ n.chars = m.numeral ∧
      nearestPattern n.decimal.numerator (10 ^ 324) = m.pattern := by
  obtain ⟨n, hn, hpart, hchars, hdenotes⟩ := m.printed.exists_numeral
  refine ⟨n, hn, hpart, hchars.trans m.numeral_printed, ?_⟩
  rw [hdenotes.sameValue.numerator_eq]
  exact m.isRounded_printed.attracts.pattern_eq (by decide +kernel) hc

end Magnitude

def ofPattern (isNegative : Bool) (pattern : Nat) : Double :=
  ⟨UInt64.ofNat ((if isNegative then 2 ^ 63 else 0) + pattern)⟩

def ofNumeral (isNegative : Bool) (n : Numeral) : Double :=
  ofPattern isNegative (nearestPattern n.decimal.numerator (10 ^ 324))

-- The double nearest to a numeral with an optional sign.
def ofText (text : String) : Double :=
  match text.toList with
  | '-' :: cs => ofNumeral true (Numeral.scan cs).1
  | cs => ofNumeral false (Numeral.scan cs).1

theorem ofPattern_eq (x : Double) : ofPattern x.isNegative (x.bits.toNat % 2 ^ 63) = x := by
  obtain ⟨bits⟩ := x
  have hlt := bits.toNat_lt
  have hsplit : (if (⟨bits⟩ : Double).isNegative then 2 ^ 63 else 0) + bits.toNat % 2 ^ 63 =
      bits.toNat := by
    simp only [isNegative, decide_eq_true_eq]
    split <;> omega
  unfold ofPattern
  rw [hsplit, UInt64.ofNat_toNat]

theorem Numeral.IsWritten.scan_chars {n : Numeral} (hn : n.IsWritten) :
    (Numeral.scan n.chars).1 = n := by
  have h := Numeral.scan_append hn (show Numeral.ends [] = true from rfl)
  rw [List.append_nil] at h
  rw [h]

-- A digit is in front, never a sign.
theorem Numeral.IsWritten.head_isDigit {n : Numeral} (hn : n.IsWritten) :
    ∃ c rest, n.chars = c :: rest ∧ c.isDigit = true := by
  obtain ⟨whole, fraction, power⟩ := n
  cases whole with
  | nil => exact absurd rfl hn.whole_ne
  | cons c whole => exact ⟨c, _, rfl, hn.whole c (by simp)⟩

theorem ofText_neg {n : Numeral} (hn : n.IsWritten) :
    ofText (String.ofList ('-' :: n.chars)) = ofNumeral true n := by
  rw [ofText, String.toList_ofList]
  simp only [hn.scan_chars]

theorem ofText_nonneg {n : Numeral} (hn : n.IsWritten) :
    ofText (String.ofList n.chars) = ofNumeral false n := by
  obtain ⟨c, rest, hchars, hc⟩ := hn.head_isDigit
  have hscan := hn.scan_chars
  have hsign : c ≠ '-' := by
    rintro rfl
    exact absurd hc (by decide)
  rw [ofText, String.toList_ofList]
  split
  · rename_i cs h
    rw [hchars] at h
    exact absurd (List.cons.inj h).1 hsign
  · rw [hscan]

-- What is printed for a finite double reads back to it.
theorem ofText_signedNumeral {x : Double} {m : Magnitude} (h : x.kind = .finite m) :
    ofText (signedNumeral x.isNegative m) = x := by
  obtain ⟨hc, hbits⟩ := kind_finite h
  obtain ⟨n, hn, -, hchars, hpattern⟩ := Magnitude.exists_numeral hc
  have hvalue : ofNumeral x.isNegative n = x := by
    unfold ofNumeral
    rw [hpattern, hbits, ofPattern_eq]
  unfold signedNumeral
  rw [← hchars]
  cases hsign : x.isNegative with
  | true =>
      rw [hsign] at hvalue
      rw [if_pos rfl, ofText_neg hn, hvalue]
  | false =>
      rw [hsign] at hvalue
      rw [if_neg (by decide), ofText_nonneg hn, hvalue]

end SwiftSource.Double

import SwiftSource.Double.Numeral
import SwiftSource.Proofs.Double.Shortest
import SwiftSource.Proofs.Parse.Digits

namespace SwiftSource.Double

open Parse

-- The digits in front of the point, those behind it, and the power of ten. A part that is not
-- written is empty.
structure Numeral where
  whole : List Char
  fraction : List Char
  power : List Char
deriving DecidableEq

namespace Numeral

-- An optional part behind its mark.
def marked (mark : Char) (part : List Char) : List Char :=
  if part.isEmpty then [] else mark :: part

def chars (n : Numeral) : List Char :=
  n.whole ++ (marked '.' n.fraction ++ marked 'e' n.power)

-- A digit is in front, and after `e` a sign may stand.
structure IsWritten (n : Numeral) : Prop where
  whole_ne : n.whole ≠ []
  whole : ∀ c ∈ n.whole, c.isDigit = true
  fraction : ∀ c ∈ n.fraction, c.isDigit = true
  power : n.power = [] ∨ ∃ ds, ds ≠ [] ∧ (∀ c ∈ ds, c.isDigit = true) ∧
    (n.power = ds ∨ n.power = '-' :: ds)

-- A point counts only in front of a digit, since a member may follow a literal.
def scanFraction : List Char → List Char × List Char
  | '.' :: c :: rest =>
    if c.isDigit then (c :: rest).span Char.isDigit else ([], '.' :: c :: rest)
  | rest => ([], rest)

def scanPower : List Char → List Char × List Char
  | 'e' :: '-' :: rest => ('-' :: (rest.span Char.isDigit).1, (rest.span Char.isDigit).2)
  | 'e' :: rest => rest.span Char.isDigit
  | rest => ([], rest)

def scan (cs : List Char) : Numeral × List Char :=
  let whole := cs.span Char.isDigit
  let fraction := scanFraction whole.2
  let power := scanPower fraction.2
  (⟨whole.1, fraction.1, power.1⟩, power.2)

-- What may follow a numeral without becoming part of it.
def ends : List Char → Bool
  | '.' :: rest => !starts Char.isDigit rest
  | rest => !starts (fun c => c.isDigit || c == 'e') rest

-- The number that is written, in units of `10 ^ -324`.
def decimal (n : Numeral) : Decimal :=
  ⟨Nat.ofDigitChars 10 (n.whole ++ n.fraction) 0,
    (324 + signedValue n.power - n.fraction.length).toNat⟩

@[simp]
theorem marked_nil (mark : Char) : marked mark [] = [] := rfl

@[simp]
theorem marked_cons (mark c : Char) (part : List Char) :
    marked mark (c :: part) = mark :: c :: part := rfl

theorem marked_of_ne_nil {part : List Char} (mark : Char) (h : part ≠ []) :
    marked mark part = mark :: part :=
  if_neg (by simpa using h)

theorem ends_not_digit {rest : List Char} (h : ends rest = true) :
    starts Char.isDigit rest = false := by
  unfold ends at h
  split at h
  · rfl
  · cases rest with
    | nil => rfl
    | cons c rest => simp_all

theorem scanPower_append {power rest : List Char}
    (hpower : power = [] ∨ ∃ ds, ds ≠ [] ∧ (∀ c ∈ ds, c.isDigit = true) ∧
      (power = ds ∨ power = '-' :: ds))
    (hrest : ends rest = true) : scanPower (marked 'e' power ++ rest) = (power, rest) := by
  have hdigit := ends_not_digit hrest
  rcases hpower with rfl | ⟨ds, hne, hds, hpower | hpower⟩
  · -- nothing is written, so `rest` must not look like a power
    cases rest with
    | nil => rfl
    | cons c rest =>
        have hc : c ≠ 'e' := by
          rintro rfl
          simp [ends] at hrest
        simp [scanPower, hc]
  · subst hpower
    cases power with
    | nil => exact absurd rfl hne
    | cons c power =>
        have hc : c ≠ '-' := by
          rintro rfl
          exact absurd (hds '-' (by simp)) (by decide)
        have hspan := span_append hds hdigit
        rw [marked_cons, List.cons_append, scanPower]
        · exact hspan
        · intro rest' h
          injection h with h
          exact hc h
  · subst hpower
    have hspan := span_append hds hdigit
    rw [marked_cons, List.cons_append, List.cons_append, scanPower, hspan]

theorem scanFraction_append {fraction rest : List Char}
    (hfraction : ∀ c ∈ fraction, c.isDigit = true) (hdigit : starts Char.isDigit rest = false)
    (hpoint : fraction = [] → ∀ rest', rest = '.' :: rest' → starts Char.isDigit rest' = false) :
    scanFraction (marked '.' fraction ++ rest) = (fraction, rest) := by
  cases fraction with
  | nil =>
      rw [marked_nil, List.nil_append]
      unfold scanFraction
      split
      · rename_i c rest'
        have hc : c.isDigit = false := hpoint rfl _ rfl
        simp [hc]
      · rfl
  | cons c ds =>
      have hc : c.isDigit = true := hfraction c (by simp)
      have hspan := span_append hfraction hdigit
      rw [marked_cons, List.cons_append, List.cons_append, scanFraction, if_pos hc]
      exact hspan

-- Scanning stops exactly behind the numeral.
theorem scan_append {n : Numeral} (hn : n.IsWritten) {rest : List Char}
    (hrest : ends rest = true) : scan (n.chars ++ rest) = (n, rest) := by
  obtain ⟨whole, fraction, power⟩ := n
  obtain ⟨-, hwhole, hfraction, hpower⟩ := hn
  simp only at hwhole hfraction hpower
  have hbehind : starts Char.isDigit (marked 'e' power ++ rest) = false := by
    cases power with
    | nil => exact ends_not_digit hrest
    | cons c power => rfl
  have hafter :
      starts Char.isDigit (marked '.' fraction ++ (marked 'e' power ++ rest)) = false := by
    cases fraction with
    | nil => exact hbehind
    | cons c fraction => rfl
  have hpoint : fraction = [] → ∀ rest', marked 'e' power ++ rest = '.' :: rest' →
      starts Char.isDigit rest' = false := by
    intro _ rest' h
    cases power with
    | nil =>
        rw [marked_nil, List.nil_append] at h
        subst h
        simpa [ends] using hrest
    | cons c power => cases h
  have hw := span_append hwhole hafter
  have hf := scanFraction_append hfraction hbehind hpoint
  have hp := scanPower_append hpower hrest
  simp only [chars, scan, List.append_assoc, hw, hf, hp]

end Numeral

end SwiftSource.Double

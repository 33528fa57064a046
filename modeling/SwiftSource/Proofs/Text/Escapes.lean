import SwiftSource.Proofs.Nesting.Scan
import SwiftSource.Proofs.Text.Expr

namespace SwiftSource

open Parse (isHexDigit)

-- A string literal with both of its quotes, and what stands behind it.
def Parse.stringLiteral (cs : List Char) : Option (String × List Char) := do
  let rest ← expect ['"'] cs
  let (text, rest) ← quoted rest
  return (String.ofList text, rest)

-- The escapes of the language. An interpolation is not among them.
inductive IsEscape : List Char → Prop
  | short {mark : Char} (hmark : mark ∈ ['\\', '"', 'n', 'r', 't', '0']) : IsEscape ['\\', mark]
  | codePoint {digits : List Char} (hne : digits ≠ [])
      (hdigits : ∀ d ∈ digits, isHexDigit d = true) :
      IsEscape (['\\', 'u', '{'] ++ digits ++ ['}'])

theorem IsEscape.cons_ne_parenthesis {escape rest : List Char} (h : IsEscape escape) :
    ¬ escape <+: '\\' :: '(' :: rest := by
  rintro ⟨suffix, hsuffix⟩
  cases h with
  | short hmark =>
      simp only [List.cons_append, List.cons.injEq] at hsuffix
      rw [hsuffix.2.1] at hmark
      exact absurd hmark (by decide)
  | codePoint hne hdigits => simp at hsuffix

theorem isEscape_codePoint (c : Char) : IsEscape (Text.codePoint c) :=
  .codePoint Nat.toDigits_ne_nil (Parse.hexValue_toDigits c.toNat).2

theorem isControl_of_isHexDigit {d : Char} (h : isHexDigit d = true) :
    Text.isControl d = false := by
  simp only [isHexDigit, Char.isDigit, Bool.or_eq_true, Bool.and_eq_true, decide_eq_true_eq,
    Char.le_def, UInt32.le_iff_toNat_le, ge_iff_le] at h
  simp only [Text.isControl, Char.toNat, Bool.or_eq_false_iff, Bool.and_eq_false_iff,
    decide_eq_false_iff_not]
  simp only [show '0'.val.toNat = 48 from rfl, show '9'.val.toNat = 57 from rfl,
    show 'a'.val.toNat = 97 from rfl, show 'f'.val.toNat = 102 from rfl] at h
  omega

namespace Text

theorem isControl_of_mem_codePoint {c d : Char} (h : d ∈ codePoint c) : isControl d = false := by
  rcases List.mem_append.mp h with h | h
  · rcases List.mem_append.mp h with h | h
    · have hopen : ['\\', 'u', '{'].all fun d => ! isControl d := by decide
      simpa using List.all_eq_true.mp hopen d h
    · exact isControl_of_isHexDigit ((Parse.hexValue_toDigits c.toNat).2 d h)
  · rw [List.mem_singleton.mp h]
    rfl

theorem isControl_of_mem_escapeChar {c d : Char} (h : d ∈ escapeChar isControl c) :
    isControl d = false := by
  have hshort {mark : Char} (hmark : isControl mark = false) (hd : d ∈ ['\\', mark]) :
      isControl d = false := by
    simp only [List.mem_cons, List.not_mem_nil, or_false] at hd
    rcases hd with rfl | rfl
    · rfl
    · exact hmark
  unfold escapeChar at h
  split_ifs at h with h1 h2 h3 h4 h5 h6 h7
  · exact hshort rfl h
  · exact hshort rfl h
  · exact hshort rfl h
  · exact hshort rfl h
  · exact hshort rfl h
  · exact hshort rfl h
  · exact isControl_of_mem_codePoint h
  · rw [List.mem_singleton.mp h]
    simpa using h7

theorem isControl_of_mem_stringLiteral {content : String} {c : Char}
    (h : c ∈ (stringLiteral content).toList) : isControl c = false := by
  simp only [stringLiteral, quote, String.toList_ofList, List.cons_append, List.mem_cons,
    List.mem_append, List.not_mem_nil, or_false, escape, List.mem_flatMap] at h
  rcases h with rfl | ⟨d, -, h⟩ | rfl
  · rfl
  · exact isControl_of_mem_escapeChar h
  · rfl

end Text

-- Inside a string literal every backslash begins an escape, unless it is the second character
-- of one.
def EscapesOnly (cs : List Char) : Prop :=
  ∀ before after, cs = before ++ '\\' :: after → (Cursor.quoted 0).scan before = .escaped 0 ∨
    ∃ escape, IsEscape escape ∧ escape <+: '\\' :: after

namespace EscapesOnly

theorem of_notMem {cs : List Char} (h : '\\' ∉ cs) : EscapesOnly cs := by
  rintro before after rfl
  exact absurd (List.mem_append_right before List.mem_cons_self) h

-- What follows does not change how the escapes in front are read.
theorem append {xs ys : List Char} (hx : EscapesOnly xs) (hstays : StaysQuoted xs)
    (hy : EscapesOnly ys) : EscapesOnly (xs ++ ys) := by
  intro before after h
  rcases List.append_eq_append_iff.mp h with ⟨middle, rfl, hmiddle⟩ | ⟨middle, rfl, hmiddle⟩
  · rw [Cursor.scan_append, hstays.scan_eq]
    exact hy middle after hmiddle
  · cases middle with
    | nil =>
        rw [List.append_nil] at hstays
        rw [hstays.scan_eq]
        exact hy [] after hmiddle.symm
    | cons c middle =>
        obtain ⟨rfl, rfl⟩ := List.cons.inj hmiddle
        rcases hx before middle rfl with hescaped | ⟨escape, hescape, hprefix⟩
        · exact Or.inl hescaped
        · exact Or.inr ⟨escape, hescape, hprefix.trans (List.prefix_append ('\\' :: middle) ys)⟩

theorem short {mark : Char} (hmark : mark ∈ ['\\', '"', 'n', 'r', 't', '0']) :
    EscapesOnly ['\\', mark] := by
  intro before after h
  cases before with
  | nil => exact Or.inr ⟨_, .short hmark, [], by simpa using h⟩
  | cons c before =>
      obtain ⟨rfl, hrest⟩ := List.cons.inj h
      -- only the second character is left, and it stands behind a backslash
      obtain ⟨rfl, -⟩ : before = [] ∧ _ := by
        simpa [List.singleton_eq_append_iff] using hrest
      exact Or.inl rfl

theorem codePoint (c : Char) : EscapesOnly (Text.codePoint c) := by
  intro before after h
  cases before with
  | nil => exact Or.inr ⟨_, isEscape_codePoint c, [], by simpa using h⟩
  | cons d before =>
      have hdigits : '\\' ∉ Nat.toDigits 16 c.toNat := fun hmem =>
        absurd ((Parse.hexValue_toDigits c.toNat).2 _ hmem) (by decide)
      have htail : 'u' :: '{' :: (Nat.toDigits 16 c.toNat ++ ['}']) = before ++ '\\' :: after :=
        (List.cons.inj h).2
      have hmem : '\\' ∈ 'u' :: '{' :: (Nat.toDigits 16 c.toNat ++ ['}']) := by
        rw [htail]
        exact List.mem_append_right before List.mem_cons_self
      simp [hdigits] at hmem

theorem escapeChar (c : Char) : EscapesOnly (Text.escapeChar Text.isControl c) := by
  unfold Text.escapeChar
  split_ifs with hbackslash
  · exact short (by decide)
  · exact short (by decide)
  · exact short (by decide)
  · exact short (by decide)
  · exact short (by decide)
  · exact short (by decide)
  · exact codePoint c
  · exact of_notMem (by simpa using Ne.symm hbackslash)

theorem escapeText (cs : List Char) : EscapesOnly (Text.escape Text.isControl cs) := by
  induction cs with
  | nil => exact of_notMem List.not_mem_nil
  | cons c cs ih => exact (escapeChar c).append (StaysQuoted.escapeChar c) ih

end EscapesOnly

namespace Literal

theorem text_string (o : Indentation) (content : String) :
    Literal.text o (.string content) = Text.stringLiteral content :=
  text_eq_token o (.string content)

theorem toList_text_string (o : Indentation) (content : String) :
    (Literal.text o (.string content)).toList =
      '"' :: (Text.escape Text.isControl content.toList ++ ['"']) := by
  rw [text_string, Text.stringLiteral, Text.quote, String.toList_ofList]
  rfl

theorem stringLiteral_text (o : Indentation) (content : String) (rest : List Char) :
    Parse.stringLiteral ((Literal.text o (.string content)).toList ++ rest) =
      some (content, rest) := by
  rw [toList_text_string, List.cons_append, List.append_assoc, List.singleton_append]
  simp [Parse.stringLiteral, Parse.quoted_escape]

-- The two quotes around the text are not part of any escape.
theorem backslash_text_string {o : Indentation} {content : String} {before after : List Char}
    (h : (Literal.text o (.string content)).toList = before ++ '\\' :: after) :
    (Cursor.code 0).scan before = .escaped 0 ∨
      ∃ escape, IsEscape escape ∧ escape <+: '\\' :: after := by
  have hbody : EscapesOnly (Text.escape Text.isControl content.toList ++ ['"']) :=
    (EscapesOnly.escapeText content.toList).append (StaysQuoted.escapeText content.toList)
      (.of_notMem (by decide))
  rw [toList_text_string] at h
  cases before with
  | nil => exact absurd (List.cons.inj h).1 (by decide)
  | cons c before =>
      obtain ⟨rfl, htail⟩ := List.cons.inj h
      exact hbody before after htail

end Literal

-- A printed string literal reads back to its content whatever stands behind it. No control
-- character is in it, and a backslash that is not itself escaped begins one of the escapes, so
-- there is no interpolation.
theorem string_literal_reversible (o : Indentation) (content : String) :
    (∀ rest, Parse.stringLiteral ((Literal.text o (.string content)).toList ++ rest) =
      some (content, rest)) ∧
    (∀ c ∈ (Literal.text o (.string content)).toList,
      0x1f < c.toNat ∧ (c.toNat < 0x7f ∨ 0x9f < c.toNat)) ∧
    (∀ before after, (Literal.text o (.string content)).toList = before ++ '\\' :: after →
      (Cursor.code 0).scan before = .escaped 0 ∨
        ∃ escape, IsEscape escape ∧ escape <+: '\\' :: after) ∧
    ∀ before after, (Literal.text o (.string content)).toList = before ++ '\\' :: '(' :: after →
      (Cursor.code 0).scan before = .escaped 0 := by
  refine ⟨Literal.stringLiteral_text o content, fun c hc => ?_,
    fun before after => Literal.backslash_text_string, fun before after h => ?_⟩
  · rw [Literal.text_string] at hc
    have hcontrol := Text.isControl_of_mem_stringLiteral hc
    simp only [Text.isControl, Bool.or_eq_false_iff, Bool.and_eq_false_iff,
      decide_eq_false_iff_not] at hcontrol
    omega
  · rcases Literal.backslash_text_string h with hescaped | ⟨escape, hescape, hprefix⟩
    · exact hescaped
    · exact absurd hprefix hescape.cons_ne_parenthesis

-- What looks like an interpolation is written with two backslashes, and a digit may follow a
-- code point.
theorem string_literal_reversible_interpolation :
    (Literal.text .tabs (.string "\\(x)\x011")).toList =
      ['"', '\\'] ++ '\\' :: '(' :: ['x', ')', '\\', 'u', '{', '1', '}', '1', '"'] ∧
    (Cursor.code 0).scan ['"', '\\'] = .escaped 0 ∧
    (Literal.text .tabs (.string "\\(x)\x011")).toList =
      "\"\\\\(x)".toList ++ '\\' :: ['u', '{', '1', '}', '1', '"'] ∧
    ((Cursor.code 0).scan "\"\\\\(x)".toList = .escaped 0 ∨
      ∃ escape, IsEscape escape ∧ escape <+: '\\' :: ['u', '{', '1', '}', '1', '"']) ∧
    '1' ∈ (Literal.text .tabs (.string "\\(x)\x011")).toList ∧
    (0x1f < '1'.toNat ∧ ('1'.toNat < 0x7f ∨ 0x9f < '1'.toNat)) := by
  obtain ⟨-, hvisible, hescapes, hinterpolation⟩ :=
    string_literal_reversible .tabs "\\(x)\x011"
  have hparenthesis : (Literal.text .tabs (.string "\\(x)\x011")).toList =
      ['"', '\\'] ++ '\\' :: '(' :: ['x', ')', '\\', 'u', '{', '1', '}', '1', '"'] := by
    decide +kernel
  have hcode : (Literal.text .tabs (.string "\\(x)\x011")).toList =
      "\"\\\\(x)".toList ++ '\\' :: ['u', '{', '1', '}', '1', '"'] := by decide +kernel
  have hdigit : '1' ∈ (Literal.text .tabs (.string "\\(x)\x011")).toList := by decide +kernel
  exact ⟨hparenthesis, hinterpolation _ _ hparenthesis, hcode, hescapes _ _ hcode, hdigit,
    hvisible _ hdigit⟩

end SwiftSource

import SwiftSource.Text.Quoted
import SwiftSource.Proofs.Parse.Scan

namespace SwiftSource

open Parse

def isWordChar (c : Char) : Bool := c.isAlphanum || c == '_'

def isOperatorChar (c : Char) : Bool :=
  ['+', '-', '*', '/', '%', '=', '<', '>', '!', '&', '|', '^', '~', '?', '.'].contains c

-- Literals that are spelled like names.
def literalWords : List String := ["true", "false", "nil"]

-- Letters, digits and underscores, with no digit in front.
def isWord (text : String) : Bool :=
  !text.toList.isEmpty && text.toList.all isWordChar && !starts Char.isDigit text.toList &&
    !literalWords.contains text

def isOperator (text : String) : Bool :=
  !text.toList.isEmpty && text.toList.all isOperatorChar

-- The words that statements and declarations are recognised by.
def statementWords : List String := ["guard", "if", "return", "throw", "defer"]

def declarationWords : List String :=
  ["let", "var", "func", "init", "extension", "struct", "public", "fileprivate", "private",
    "static"]

def keywords : List String :=
  statementWords ++ declarationWords ++ ["else", "get", "set", "async", "throws", "inout", "in"]

def isIdentifier (text : String) : Bool :=
  isWord text && !keywords.contains text

-- The texts of types and default values are kept as they are.
def isTypeChar (c : Char) : Bool :=
  !(c.isWhitespace || ['=', ',', '(', ')', '{', '}', ':', '"'].contains c)

def isTypeText (text : String) : Bool :=
  !text.toList.isEmpty && text.toList.all isTypeChar

theorem isWord_iff {text : String} :
    isWord text = true ↔ text.toList ≠ [] ∧ (∀ c ∈ text.toList, isWordChar c = true) ∧
      starts Char.isDigit text.toList = false ∧ text ∉ literalWords := by
  simp [isWord, and_assoc]

theorem isWordChar_of_literalWords {w : String} (hw : w ∈ literalWords) :
    ∀ c ∈ w.toList, isWordChar c = true := by
  have hall : ∀ w ∈ literalWords, w.toList.all isWordChar = true := by decide
  exact List.all_eq_true.mp (hall w hw)

theorem isOperator_iff {text : String} :
    isOperator text = true ↔
      text.toList ≠ [] ∧ ∀ c ∈ text.toList, isOperatorChar c = true := by
  simp [isOperator]

theorem isWord_of_isIdentifier {text : String} (h : isIdentifier text = true) :
    isWord text = true := by
  simp only [isIdentifier, Bool.and_eq_true] at h
  exact h.1

theorem isTypeText_iff {text : String} :
    isTypeText text = true ↔ text.toList ≠ [] ∧ ∀ c ∈ text.toList, isTypeChar c = true := by
  simp [isTypeText]

namespace Parse

-- As many characters of one class as there are, but at least one.
def token (p : Char → Bool) (cs : List Char) : Option (String × List Char) :=
  match cs.span p with
  | ([], _) => none
  | (w, rest) => some (String.ofList w, rest)

theorem token_append {p : Char → Bool} {text : String} {rest : List Char} (hne : text.toList ≠ [])
    (htext : ∀ c ∈ text.toList, p c = true) (hrest : starts p rest = false) :
    token p (text.toList ++ rest) = some (text, rest) := by
  obtain ⟨c, cs, hcs⟩ := List.exists_cons_of_ne_nil hne
  have hspan := span_append htext hrest
  rw [hcs] at hspan
  simp only [token, hcs, hspan]
  rw [← hcs, String.ofList_toList]

def word : List Char → Option (String × List Char) := token isWordChar

def typeText : List Char → Option (String × List Char) := token isTypeChar

theorem word_isWord {name : String} {rest : List Char} (hname : isWord name = true)
    (hrest : starts isWordChar rest = false) :
    word (name.toList ++ rest) = some (name, rest) := by
  obtain ⟨hne, hchars, -, -⟩ := isWord_iff.mp hname
  exact token_append hne hchars hrest

theorem typeText_isTypeText {text : String} {rest : List Char} (htext : isTypeText text = true)
    (hrest : starts isTypeChar rest = false) :
    typeText (text.toList ++ rest) = some (text, rest) := by
  obtain ⟨hne, hchars⟩ := isTypeText_iff.mp htext
  exact token_append hne hchars hrest

-- An operator between two blanks.
def operator : List Char → Option (String × List Char)
  | ' ' :: cs =>
    match cs.span isOperatorChar with
    | ([], _) => none
    | (op, rest) => (expect [' '] rest).map fun rest => (String.ofList op, rest)
  | _ => none

theorem operator_append {op : String} (hop : isOperator op = true) (rest : List Char) :
    operator (' ' :: (op.toList ++ ' ' :: rest)) = some (op, rest) := by
  obtain ⟨hne, hchars⟩ := isOperator_iff.mp hop
  obtain ⟨c, cs, hcs⟩ := List.exists_cons_of_ne_nil hne
  have hspan : (op.toList ++ ' ' :: rest).span isOperatorChar = (op.toList, ' ' :: rest) :=
    span_append hchars rfl
  rw [hcs] at hspan
  simp only [operator, hcs, hspan, expect, if_true, Option.map_some]
  rw [← hcs, String.ofList_toList]

def isHexDigit (c : Char) : Bool := c.isDigit || ('a' ≤ c && c ≤ 'f')

def hexDigit (c : Char) : Nat :=
  if c.isDigit then c.toNat - '0'.toNat else c.toNat - 'a'.toNat + 10

def hexValue (cs : List Char) : Nat :=
  cs.foldl (fun value c => 16 * value + hexDigit c) 0

def shortEscapes : List (Char × Char) :=
  [('\\', '\\'), ('"', '"'), ('n', '\n'), ('r', '\r'), ('t', '\t'), ('0', '\x00')]

-- One character inside quotes, in whichever way it is written.
def character : List Char → Option (Char × List Char)
  | '\\' :: 'u' :: '{' :: cs =>
    (expect ['}'] (cs.span isHexDigit).2).map fun rest =>
      (Char.ofNat (hexValue (cs.span isHexDigit).1), rest)
  | '\\' :: c :: cs => (shortEscapes.lookup c).map fun c => (c, cs)
  | c :: cs => some (c, cs)
  | [] => none

theorem hexDigit_digitChar {d : Nat} (hd : d < 16) :
    hexDigit d.digitChar = d ∧ isHexDigit d.digitChar = true := by
  have hall : ∀ d : Fin 16,
      hexDigit d.val.digitChar = d.val ∧ isHexDigit d.val.digitChar = true := by
    decide
  exact hall ⟨d, hd⟩

theorem hexValue_toDigits (n : Nat) : hexValue (Nat.toDigits 16 n) = n ∧
    ∀ c ∈ Nat.toDigits 16 n, isHexDigit c = true := by
  induction n using Nat.strongRecOn with
  | ind n ih =>
      by_cases hlt : n < 16
      · have hone := hexDigit_digitChar hlt
        rw [Nat.toDigits_of_lt_base hlt]
        simp [hexValue, hone]
      · have hlast := hexDigit_digitChar (Nat.mod_lt n (by omega : 16 > 0))
        obtain ⟨hvalue, hdigits⟩ := ih (n / 16) (by omega)
        rw [Nat.toDigits_of_base_le (by decide) (by omega)]
        refine ⟨?_, ?_⟩
        · have hsplit : hexValue (Nat.toDigits 16 (n / 16) ++ [(n % 16).digitChar]) =
              16 * hexValue (Nat.toDigits 16 (n / 16)) + hexDigit (n % 16).digitChar := by
            simp [hexValue]
          rw [hsplit, hvalue, hlast.1]
          omega
        · rw [List.forall_mem_append]
          exact ⟨hdigits, by simpa using hlast.2⟩

theorem character_codePoint (c : Char) (rest : List Char) :
    character (Text.codePoint c ++ rest) = some (c, rest) := by
  obtain ⟨hvalue, hdigits⟩ := hexValue_toDigits c.toNat
  have hspan : (Nat.toDigits 16 c.toNat ++ '}' :: rest).span isHexDigit =
      (Nat.toDigits 16 c.toNat, '}' :: rest) := span_append hdigits rfl
  simp [Text.codePoint, character, -List.span_eq_takeWhile_dropWhile, hspan, hvalue]

theorem character_plain {c : Char} (h : c ≠ '\\') (rest : List Char) :
    character (c :: rest) = some (c, rest) := by
  unfold character
  split <;> simp_all

theorem character_escapeChar (c : Char) (rest : List Char) :
    character (Text.escapeChar Text.isControl c ++ rest) = some (c, rest) := by
  unfold Text.escapeChar
  split_ifs with h1 h2 h3 h4 h5 h6 h7
  · subst h1; rfl
  · subst h2; rfl
  · subst h3; rfl
  · subst h4; rfl
  · subst h5; rfl
  · subst h6; rfl
  · exact character_codePoint c rest
  · exact character_plain h1 rest

-- No character is written with a quote in front.
theorem starts_escapeChar (c : Char) (rest : List Char) :
    starts (· == '"') (Text.escapeChar Text.isControl c ++ rest) = false := by
  unfold Text.escapeChar
  split_ifs with h1 h2
  · rfl
  · rfl
  · rfl
  · rfl
  · rfl
  · rfl
  · rfl
  · simpa using h2

theorem escapeChar_ne_nil (c : Char) : Text.escapeChar Text.isControl c ≠ [] := by
  unfold Text.escapeChar Text.codePoint
  split_ifs <;> simp

-- The content of a string literal up to the quote that ends it.
def quoted (cs : List Char) : Option (List Char × List Char) :=
  if starts (· == '"') cs then some ([], cs.tail)
  else do
    let (c, rest) ← character cs
    after cs rest fun _ => do
      let (text, rest) ← quoted rest
      return (c :: text, rest)
termination_by cs.length

theorem quoted_escape (text rest : List Char) :
    quoted (Text.escape Text.isControl text ++ '"' :: rest) = some (text, rest) := by
  induction text with
  | nil =>
      rw [quoted]
      rfl
  | cons c text ih =>
      have hshorter := shorter_append_self (escapeChar_ne_nil c)
        (Text.escape Text.isControl text ++ '"' :: rest)
      rw [Text.escape_cons, List.append_assoc, quoted, starts_escapeChar, character_escapeChar]
      simp [ih]

end Parse

end SwiftSource

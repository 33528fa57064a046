import Mathlib.Data.List.Basic
import SwiftSource.Proofs.Layout.Lines

namespace SwiftSource

-- Fragments of text with a literal between each two of them.
def weave : List String → List String → String
  | [], _ => ""
  | fragment :: _, [] => fragment
  | fragment :: fragments, literal :: literals => fragment ++ literal ++ weave fragments literals

theorem weave_modifyHead (text : String) {fragments : List String} (hne : fragments ≠ [])
    (literals : List String) :
    weave (fragments.modifyHead (text ++ ·)) literals = text ++ weave fragments literals := by
  obtain ⟨fragment, rest, rfl⟩ := List.exists_cons_of_ne_nil hne
  cases literals with
  | nil => rfl
  | cons literal literals => simp [weave, String.append_assoc]

namespace Token

def content? : Token → Option String
  | .word _ => none
  | .string content => some content

-- What the string literals say, in order.
def contents (tokens : List Token) : List String :=
  tokens.filterMap content?

def blank : Token → Token
  | .word text => .word text
  | .string _ => .string ""

-- The text in front of the first string literal, between each two, and behind the last.
def fragments : List Token → List String
  | [] => [""]
  | .word text :: rest => (fragments rest).modifyHead (text ++ ·)
  | .string _ :: rest => "" :: fragments rest

@[simp]
theorem contents_nil : contents [] = [] := rfl

@[simp]
theorem contents_word (text : String) (tokens : List Token) :
    contents (.word text :: tokens) = contents tokens := rfl

@[simp]
theorem contents_string (content : String) (tokens : List Token) :
    contents (.string content :: tokens) = content :: contents tokens := rfl

@[simp]
theorem contents_append (xs ys : List Token) : contents (xs ++ ys) = contents xs ++ contents ys :=
  List.filterMap_append

theorem length_fragments (tokens : List Token) :
    (fragments tokens).length = (contents tokens).length + 1 := by
  induction tokens with
  | nil => rfl
  | cons token rest ih =>
      cases token with
      | word text => simpa [fragments] using ih
      | string content => simpa [fragments] using ih

theorem fragments_ne_nil (tokens : List Token) : fragments tokens ≠ [] := by
  apply List.ne_nil_of_length_pos
  rw [length_fragments]
  omega

theorem join_eq_weave (tokens : List Token) :
    join tokens = weave (fragments tokens) ((contents tokens).map Text.stringLiteral) := by
  induction tokens with
  | nil => rfl
  | cons token rest ih =>
      rw [join_cons, ih]
      cases token with
      | word text => exact (weave_modifyHead text (fragments_ne_nil rest) _).symm
      | string content => simp [fragments, weave, text]

-- Fragments hold nothing of what the literals say.
theorem fragments_map_blank (tokens : List Token) :
    fragments (tokens.map blank) = fragments tokens := by
  induction tokens with
  | nil => rfl
  | cons token rest ih =>
      cases token with
      | word text => simp [blank, fragments, ih]
      | string content => simp [blank, fragments, ih]

theorem join_intercalate (separator : String) (parts : List (List Token)) :
    join (List.intercalate [.word separator] parts) = separator.intercalate (parts.map join) := by
  induction parts with
  | nil => rfl
  | cons part rest ih =>
      cases rest with
      | nil => simp
      | cons next rest => simp [List.intercalate_cons_cons, ih, String.append_assoc]

theorem contents_intercalate (separator : String) (parts : List (List Token)) :
    contents (List.intercalate [.word separator] parts) = parts.flatMap contents := by
  induction parts with
  | nil => rfl
  | cons part rest ih =>
      cases rest with
      | nil => simp
      | cons next rest => simp [List.intercalate_cons_cons, ih]

theorem map_blank_intercalate (separator : String) (parts : List (List Token)) :
    (List.intercalate [.word separator] parts).map blank =
      List.intercalate [.word separator] (parts.map (List.map blank)) := by
  induction parts with
  | nil => rfl
  | cons part rest ih =>
      cases rest with
      | nil => simp
      | cons next rest => simp [List.intercalate_cons_cons, ih, blank]

@[simp]
theorem contents_groupIf (needed : Bool) (tokens : List Token) :
    contents (groupIf needed tokens) = contents tokens := by
  cases needed <;> simp [groupIf]

@[simp]
theorem map_blank_groupIf (needed : Bool) (tokens : List Token) :
    (groupIf needed tokens).map blank = groupIf needed (tokens.map blank) := by
  cases needed <;> simp [groupIf, blank]

@[simp]
theorem blank_word (text : String) : (word text).blank = .word text := rfl

-- A string literal is written with its quotes, however little it says.
theorem text_blank_eq_empty (token : Token) : token.blank.text = "" ↔ token.text = "" := by
  cases token with
  | word text => rfl
  | string content => simp [blank, text, Text.stringLiteral, Text.quote, String.ext_iff]

theorem join_map_blank_eq_empty (tokens : List Token) :
    join (tokens.map blank) = "" ↔ join tokens = "" := by
  induction tokens with
  | nil => rfl
  | cons token rest ih => simp [ih, text_blank_eq_empty]

end Token

namespace Line

def blank (line : Line) : Line :=
  ⟨line.depth, line.tokens.map Token.blank⟩

def contents (line : Line) : List String :=
  Token.contents line.tokens

def shownTokens (indentation : Indentation) (line : Line) : List Token :=
  if line.text = "" then line.tokens
  else .word (String.join (List.replicate line.depth indentation.unit)) :: line.tokens

theorem join_shownTokens (indentation : Indentation) (line : Line) :
    Token.join (line.shownTokens indentation) = line.shown indentation := by
  unfold shownTokens shown
  split_ifs with hempty
  · exact hempty
  · simp [text]

theorem contents_shownTokens (indentation : Indentation) (line : Line) :
    Token.contents (line.shownTokens indentation) = line.contents := by
  unfold shownTokens
  split_ifs <;> rfl

theorem shownTokens_blank (indentation : Indentation) (line : Line) :
    line.blank.shownTokens indentation = (line.shownTokens indentation).map Token.blank := by
  have hempty : line.blank.text = "" ↔ line.text = "" :=
    Token.join_map_blank_eq_empty line.tokens
  by_cases htext : line.text = ""
  · rw [shownTokens, shownTokens, if_pos (hempty.mpr htext), if_pos htext]
    rfl
  · rw [shownTokens, shownTokens, if_neg (mt hempty.mp htext), if_neg htext]
    rfl

end Line

-- The tokens of a whole text, margins and line breaks included.
def layoutTokens (indentation : Indentation) (lines : List Line) : List Token :=
  List.intercalate [.word "\n"] (lines.map (Line.shownTokens indentation))

theorem join_layoutTokens (indentation : Indentation) (lines : List Line) :
    Token.join (layoutTokens indentation lines) = layout indentation lines := by
  rw [layoutTokens, Token.join_intercalate, List.map_map]
  congr 1
  exact List.map_congr_left fun line _ => line.join_shownTokens indentation

theorem contents_layoutTokens (indentation : Indentation) (lines : List Line) :
    Token.contents (layoutTokens indentation lines) = lines.flatMap Line.contents := by
  rw [layoutTokens, Token.contents_intercalate, List.flatMap_map]
  exact List.flatMap_congr fun line _ => line.contents_shownTokens indentation

theorem layoutTokens_blank (indentation : Indentation) (lines : List Line) :
    layoutTokens indentation (lines.map Line.blank) =
      (layoutTokens indentation lines).map Token.blank := by
  rw [layoutTokens, layoutTokens, Token.map_blank_intercalate, List.map_map, List.map_map]
  congr 1
  exact List.map_congr_left fun line _ => line.shownTokens_blank indentation

end SwiftSource

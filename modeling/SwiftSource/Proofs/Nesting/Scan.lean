import SwiftSource.Proofs.Parse.Token

namespace SwiftSource

-- Where a scan of source text from left to right stands: how many brackets are open, and whether
-- it is in code, in a string literal, or behind a backslash in one.
inductive Cursor where
  | code (depth : Nat)
  | quoted (depth : Nat)
  | escaped (depth : Nat)
deriving DecidableEq

def isOpening (c : Char) : Bool := c == '(' || c == '[' || c == '{'

def isClosing (c : Char) : Bool := c == ')' || c == ']' || c == '}'

-- What a scan reacts to in code.
def isDelimiter (c : Char) : Bool := isOpening c || isClosing c || c == '"'

def isBare (text : String) : Bool := text.toList.all fun c => ! isDelimiter c

namespace Cursor

def next : Cursor → Char → Cursor
  | .code depth, c =>
    if c = '"' then .quoted depth
    else if isOpening c then .code (depth + 1)
    else if isClosing c then .code (depth - 1)
    else .code depth
  | .quoted depth, c =>
    if c = '\\' then .escaped depth
    else if c = '"' then .code depth
    else .quoted depth
  | .escaped depth, _ => .quoted depth

def scan (cursor : Cursor) (cs : List Char) : Cursor :=
  cs.foldl next cursor

-- The position of the first brace that opens outside of all brackets and string literals.
def firstBrace? : Cursor → List Char → Option Nat
  | _, [] => none
  | cursor, c :: cs =>
    if cursor = .code 0 ∧ c = '{' then some 0 else ((cursor.next c).firstBrace? cs).map (· + 1)

@[simp]
theorem scan_nil (cursor : Cursor) : cursor.scan [] = cursor := rfl

@[simp]
theorem scan_cons (cursor : Cursor) (c : Char) (cs : List Char) :
    cursor.scan (c :: cs) = (cursor.next c).scan cs := rfl

@[simp]
theorem scan_append (cursor : Cursor) (xs ys : List Char) :
    cursor.scan (xs ++ ys) = (cursor.scan xs).scan ys :=
  List.foldl_append

@[simp]
theorem firstBrace?_nil (cursor : Cursor) : cursor.firstBrace? [] = none := rfl

theorem firstBrace?_cons_of_not {cursor : Cursor} {c : Char} (h : ¬ (cursor = .code 0 ∧ c = '{'))
    (cs : List Char) :
    cursor.firstBrace? (c :: cs) = ((cursor.next c).firstBrace? cs).map (· + 1) := by
  rw [firstBrace?, if_neg h]

theorem firstBrace?_append (cursor : Cursor) (xs ys : List Char) :
    cursor.firstBrace? (xs ++ ys) =
      (cursor.firstBrace? xs).or (((cursor.scan xs).firstBrace? ys).map (· + xs.length)) := by
  induction xs generalizing cursor with
  | nil => simp
  | cons c xs ih =>
      by_cases hbrace : cursor = .code 0 ∧ c = '{'
      · rw [List.cons_append, firstBrace?, firstBrace?, if_pos hbrace, if_pos hbrace]
        rfl
      · rw [List.cons_append, firstBrace?_cons_of_not hbrace, firstBrace?_cons_of_not hbrace, ih,
          scan_cons, Option.map_or, Option.map_map, List.length_cons]
        rfl

end Cursor

-- A text after which the scan is where it was. Whether it shows a brace is what a scan from
-- outside of all brackets finds, inside of some it finds none.
structure Nested (shows : Bool) (cs : List Char) : Prop where
  scan_eq (depth : Nat) : (Cursor.code depth).scan cs = .code depth
  isSome_firstBrace? : ((Cursor.code 0).firstBrace? cs).isSome = shows
  firstBrace?_succ (depth : Nat) : (Cursor.code (depth + 1)).firstBrace? cs = none

theorem nested_nil : Nested false [] :=
  ⟨fun _ => rfl, rfl, fun _ => rfl⟩

theorem Nested.append {a b : Bool} {xs ys : List Char} (hx : Nested a xs) (hy : Nested b ys) :
    Nested (a || b) (xs ++ ys) where
  scan_eq depth := by rw [Cursor.scan_append, hx.scan_eq, hy.scan_eq]
  isSome_firstBrace? := by
    rw [Cursor.firstBrace?_append, hx.scan_eq, Option.isSome_or, Option.isSome_map,
      hx.isSome_firstBrace?, hy.isSome_firstBrace?]
  firstBrace?_succ depth := by
    rw [Cursor.firstBrace?_append, hx.scan_eq, hx.firstBrace?_succ, hy.firstBrace?_succ]
    rfl

theorem Nested.append_false {shows : Bool} {xs ys : List Char} (hx : Nested shows xs)
    (hy : Nested false ys) : Nested shows (xs ++ ys) := by
  simpa using hx.append hy

theorem Nested.false_append {shows : Bool} {xs ys : List Char} (hx : Nested false xs)
    (hy : Nested shows ys) : Nested shows (xs ++ ys) :=
  hx.append hy

theorem nested_of_not_delimiter {cs : List Char} (h : ∀ c ∈ cs, isDelimiter c = false) :
    Nested false cs := by
  have hchar {c : Char} (hc : isDelimiter c = false) : Nested false [c] := by
    simp only [isDelimiter, Bool.or_eq_false_iff, beq_eq_false_iff_ne] at hc
    obtain ⟨⟨hopening, hclosing⟩, hquote⟩ := hc
    have hbrace : c ≠ '{' := by
      rintro rfl
      cases hopening
    have hnext (depth : Nat) : (Cursor.code depth).next c = .code depth := by
      simp [Cursor.next, hopening, hclosing, hquote]
    exact ⟨hnext, by simp [Cursor.firstBrace?, hbrace], fun _ => by simp [Cursor.firstBrace?]⟩
  induction cs with
  | nil => exact nested_nil
  | cons c cs ih =>
      obtain ⟨hc, hcs⟩ := List.forall_mem_cons.mp h
      exact (hchar hc).false_append (ih hcs)

theorem nested_of_isBare {text : String} (h : isBare text = true) : Nested false text.toList :=
  nested_of_not_delimiter fun c hc => by simpa using List.all_eq_true.mp h c hc

-- Brackets hide what is inside of them, and braces show themselves.
theorem Nested.enclosed {shows : Bool} {cs : List Char} (h : Nested shows cs)
    (opening closing : Char) (hopening : isOpening opening = true)
    (hclosing : isClosing closing = true) :
    Nested (opening == '{') (opening :: (cs ++ [closing])) := by
  have hquote : opening ≠ '"' := by
    rintro rfl
    cases hopening
  have hopen (depth : Nat) : (Cursor.code depth).next opening = .code (depth + 1) := by
    simp [Cursor.next, hquote, hopening]
  have hclose (depth : Nat) : (Cursor.code (depth + 1)).next closing = .code depth := by
    have hquote : closing ≠ '"' := by
      rintro rfl
      cases hclosing
    have hopening : isOpening closing = false := by
      simp only [isClosing, Bool.or_eq_true, beq_iff_eq] at hclosing
      rcases hclosing with (rfl | rfl) | rfl <;> rfl
    simp [Cursor.next, hquote, hopening, hclosing]
  have hinside (depth : Nat) : (Cursor.code (depth + 1)).firstBrace? (cs ++ [closing]) = none := by
    rw [Cursor.firstBrace?_append, h.firstBrace?_succ, h.scan_eq]
    simp [Cursor.firstBrace?]
  refine ⟨fun depth => ?_, ?_, fun depth => ?_⟩
  · rw [Cursor.scan_cons, hopen, Cursor.scan_append, h.scan_eq, Cursor.scan_cons, hclose,
      Cursor.scan_nil]
  · by_cases hbrace : opening = '{'
    · simp [Cursor.firstBrace?, hbrace]
    · simp [Cursor.firstBrace?, hbrace, hopen, hinside]
  · rw [Cursor.firstBrace?_cons_of_not (by simp), hopen, hinside, Option.map_none]

-- A text that does not end the string literal it stands in.
structure StaysQuoted (cs : List Char) : Prop where
  scan_eq (depth : Nat) : (Cursor.quoted depth).scan cs = .quoted depth
  firstBrace?_eq (depth : Nat) : (Cursor.quoted depth).firstBrace? cs = none

namespace StaysQuoted

theorem nil : StaysQuoted [] :=
  ⟨fun _ => rfl, fun _ => rfl⟩

theorem append {xs ys : List Char} (hx : StaysQuoted xs) (hy : StaysQuoted ys) :
    StaysQuoted (xs ++ ys) where
  scan_eq depth := by rw [Cursor.scan_append, hx.scan_eq, hy.scan_eq]
  firstBrace?_eq depth := by
    rw [Cursor.firstBrace?_append, hx.scan_eq, hx.firstBrace?_eq, hy.firstBrace?_eq]
    rfl

theorem char {c : Char} (hquote : c ≠ '"') (hbackslash : c ≠ '\\') : StaysQuoted [c] :=
  ⟨fun _ => by simp [Cursor.next, hquote, hbackslash], fun _ => by simp [Cursor.firstBrace?]⟩

theorem of_forall {cs : List Char} (h : ∀ c ∈ cs, c ≠ '"' ∧ c ≠ '\\') : StaysQuoted cs := by
  induction cs with
  | nil => exact nil
  | cons c cs ih =>
      obtain ⟨hc, hcs⟩ := List.forall_mem_cons.mp h
      exact (char hc.1 hc.2).append (ih hcs)

theorem escape (c : Char) : StaysQuoted ['\\', c] :=
  ⟨fun _ => by simp [Cursor.next], fun _ => by simp [Cursor.firstBrace?, Cursor.next]⟩

theorem codePoint (c : Char) : StaysQuoted (Text.codePoint c) := by
  have hdigits : ∀ d ∈ Nat.toDigits 16 c.toNat, d ≠ '"' ∧ d ≠ '\\' := by
    intro d hd
    have hhex := (Parse.hexValue_toDigits c.toNat).2 d hd
    constructor
    · rintro rfl
      exact absurd hhex (by decide)
    · rintro rfl
      exact absurd hhex (by decide)
  have hopen : StaysQuoted ['\\', 'u', '{'] :=
    (escape 'u').append (char (by decide) (by decide))
  exact (hopen.append (of_forall hdigits)).append (char (by decide) (by decide))

theorem escapeChar (c : Char) : StaysQuoted (Text.escapeChar Text.isControl c) := by
  unfold Text.escapeChar
  split_ifs with hbackslash hquote
  · exact escape '\\'
  · exact escape '"'
  · exact escape 'n'
  · exact escape 'r'
  · exact escape 't'
  · exact escape '0'
  · exact codePoint c
  · exact char hquote hbackslash

theorem escapeText (cs : List Char) : StaysQuoted (Text.escape Text.isControl cs) := by
  induction cs with
  | nil => exact nil
  | cons c cs ih => exact (escapeChar c).append ih

end StaysQuoted

-- Whatever a string literal says, the scan passes over it.
theorem nested_stringLiteral (content : String) :
    Nested false (Text.stringLiteral content).toList := by
  have hescape := StaysQuoted.escapeText content.toList
  have htext : (Text.stringLiteral content).toList =
      '"' :: (Text.escape Text.isControl content.toList ++ ['"']) := by
    simp [Text.stringLiteral, Text.quote]
  have hnone (depth : Nat) : (Cursor.code depth).firstBrace? (Text.stringLiteral content).toList =
      none := by
    rw [htext, Cursor.firstBrace?_cons_of_not (by simp), Cursor.next, if_pos rfl,
      Cursor.firstBrace?_append, hescape.scan_eq, hescape.firstBrace?_eq]
    simp [Cursor.firstBrace?]
  refine ⟨fun depth => ?_, by rw [hnone, Option.isSome_none], fun depth => hnone (depth + 1)⟩
  rw [htext, Cursor.scan_cons, Cursor.next, if_pos rfl, Cursor.scan_append, hescape.scan_eq]
  simp [Cursor.next]

end SwiftSource

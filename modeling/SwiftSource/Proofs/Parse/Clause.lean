import SwiftSource.Proofs.Parse.Keyword
import SwiftSource.Proofs.Parse.Separated
import SwiftSource.Proofs.Tree.WellFormed
import SwiftSource.Render.Decl

namespace SwiftSource.Parse

open Command (flatList)

-- The parts of a declaration between its name and its bodies.

-- An optional text of a type behind its mark.
def marked (mark cs : List Char) : Option (Option String × List Char) :=
  match expect mark cs with
  | none => some (none, cs)
  | some rest => do
    let (text, rest) ← typeText rest
    return (some text, rest)

def markedChars (mark : List Char) : Option String → List Char
  | none => []
  | some text => mark ++ text.toList

theorem marked_append {mark : List Char} {text : Option String}
    (htext : ∀ t ∈ text, isTypeText t = true) {rest : List Char}
    (hrest : starts isTypeChar rest = false) (hmark : expect mark rest = none) :
    marked mark (markedChars mark text ++ rest) = some (text, rest) := by
  cases text with
  | none => rw [markedChars, List.nil_append, marked, hmark]
  | some text =>
      rw [markedChars, List.append_assoc, marked, expect_append]
      simp [typeText_isTypeText (htext text rfl) hrest]

theorem flatList_typeClause (type : Option String) :
    flatList (Print.typeClause type) = markedChars [':', ' '] type := by
  cases type <;> simp [Print.typeClause, markedChars, flatList, Command.flat]

theorem flatList_returnClause (type : Option String) :
    flatList (Print.returnClause type) = markedChars [' ', '-', '>', ' '] type := by
  cases type <;> simp [Print.returnClause, markedChars, flatList, Command.flat]

theorem flatList_defaultValue (value : Option String) :
    flatList (Print.defaultValue value) = markedChars [' ', '=', ' '] value := by
  cases value <;> simp [Print.defaultValue, markedChars, flatList, Command.flat]

-- The types that a declaration conforms to, and the blank behind them.
def inheritance (cs : List Char) : Option (Option (List (Separated String)) × List Char) :=
  match expect [':', ' '] cs with
  | none => do
    let rest ← expect [' '] cs
    return (none, rest)
  | some rest => do
    let (types, rest) ← separated typeText ' ' rest
    return (some types, rest)

theorem flatList_names (names : List (Separated String)) :
    flatList (Print.names names) = separatedChars String.toList names := by
  induction names with
  | nil => rfl
  | cons name names ih =>
      obtain ⟨text, comma⟩ := name
      have hcons : Print.names (⟨text, comma⟩ :: names) =
          .write text :: (Print.comma comma ++ Print.names names) := rfl
      rw [hcons]
      cases comma <;>
        simp [separatedChars, Print.comma, flatList, Command.flat, ih]

theorem inheritance_append {types : List String} (htypes : ∀ t ∈ types, isTypeText t = true)
    (rest : List Char) :
    inheritance (flatList (Print.inheritanceClause (inheritanceClause? types)) ++ ' ' :: rest) =
      some (inheritanceClause? types, rest) := by
  cases types with
  | nil => rfl
  | cons first others =>
      have hlist : separated typeText ' '
          (separatedChars String.toList (separate (first :: others)) ++ ' ' :: rest) =
          some (separate (first :: others), rest) := by
        refine separated_reads (separated_eq_step typeText ' ') (by decide) (fun _ => rfl) ?_ rest
        intro t ht c rest hc
        refine typeText_isTypeText (htypes t ht) ?_
        rcases hc with rfl | rfl <;> rfl
      have htext : flatList (Print.inheritanceClause (inheritanceClause? (first :: others))) ++
          ' ' :: rest = ':' :: ' ' ::
            (separatedChars String.toList (separate (first :: others)) ++ ' ' :: rest) := by
        simp [inheritanceClause?, Print.inheritanceClause, Print.inheritance, flatList,
          Command.flat, flatList_names]
      rw [htext, inheritance]
      simp [expect, hlist, inheritanceClause?]

-- A second type behind a blank.
def secondType? : List Char → Option (List Char)
  | ' ' :: rest => if starts isTypeChar rest then some rest else none
  | _ => none

-- `inout` is a mark only if a type follows it.
def afterInout (first : String) (cs : List Char) : Option (List Char) :=
  if first = "inout" then secondType? cs else none

def inoutChars (isInout : Bool) : List Char :=
  if isInout then "inout ".toList else []

def parameterType (cs : List Char) : Option ((Bool × String) × List Char) := do
  let (first, rest) ← typeText cs
  match afterInout first rest with
  | none => return ((false, first), rest)
  | some rest => do
    let (type, rest) ← typeText rest
    return ((true, type), rest)

-- A name, or a label and a name.
def parameterName (cs : List Char) : Option ((Option String × String) × List Char) := do
  let (first, rest) ← word cs
  match expect [' '] rest with
  | none => return ((none, first), rest)
  | some rest => do
    let (name, rest) ← word rest
    return ((some first, name), rest)

def parameter (cs : List Char) : Option (Parameter × List Char) := do
  let ((label, name), rest) ← parameterName cs
  let rest ← expect [':', ' '] rest
  let ((isInout, type), rest) ← parameterType rest
  let (value, rest) ← marked [' ', '=', ' '] rest
  return (⟨label, name, type, isInout, value⟩, rest)

theorem parameterName_append {label : Option String} {name : String}
    (hlabel : ∀ l ∈ label, isWord l = true) (hname : isWord name = true) (rest : List Char) :
    parameterName (flatList (Print.parameterLabel label) ++ (name.toList ++ ':' :: rest)) =
      some ((label, name), ':' :: rest) := by
  have hnameWord : word (name.toList ++ ':' :: rest) = some (name, ':' :: rest) :=
    word_isWord hname rfl
  cases label with
  | none =>
      rw [Print.parameterLabel, flatList, List.nil_append, parameterName, hnameWord]
      simp [expect]
  | some label =>
      have hlabelWord : word (label.toList ++ ' ' :: (name.toList ++ ':' :: rest)) =
          some (label, ' ' :: (name.toList ++ ':' :: rest)) := word_isWord (hlabel label rfl) rfl
      have htext : flatList (Print.parameterLabel (some label)) ++ (name.toList ++ ':' :: rest) =
          label.toList ++ ' ' :: (name.toList ++ ':' :: rest) := by
        simp [Print.parameterLabel, flatList, Command.flat]
      rw [htext, parameterName, hlabelWord]
      simp [expect, hnameWord]

theorem parameterType_append (isInout : Bool) {type : String} (htype : isTypeText type = true)
    {rest : List Char} (hrest : starts isTypeChar rest = false)
    (hafter : secondType? rest = none) :
    parameterType (inoutChars isInout ++ (type.toList ++ rest)) =
      some ((isInout, type), rest) := by
  have htypeRead := typeText_isTypeText htype hrest
  cases isInout with
  | false =>
      have hnone : afterInout type rest = none := by simp [afterInout, hafter]
      have htext : inoutChars false ++ (type.toList ++ rest) = type.toList ++ rest := rfl
      rw [htext, parameterType, htypeRead]
      simp [hnone]
  | true =>
      obtain ⟨hne, hchars⟩ := isTypeText_iff.mp htype
      have hmark : typeText ("inout".toList ++ ' ' :: (type.toList ++ rest)) =
          some ("inout", ' ' :: (type.toList ++ rest)) := typeText_isTypeText (by decide) rfl
      have htext : inoutChars true ++ (type.toList ++ rest) =
          "inout".toList ++ ' ' :: (type.toList ++ rest) := by simp [inoutChars]
      rw [htext, parameterType, hmark]
      simp [afterInout, secondType?, starts_of_forall hne hchars rest, htypeRead]

-- A parameter without the comma behind it.
def parameterChars (p : Parameter) : List Char :=
  flatList (Print.parameterLabel p.label) ++ (p.name.toList ++ ':' :: ' ' ::
    (inoutChars p.isInout ++ (p.type.toList ++ markedChars [' ', '=', ' '] p.defaultValue)))

theorem parameter_append {p : Parameter} (hp : p.wellFormed = true) {c : Char}
    (hc : c = ',' ∨ c = ')') (rest : List Char) :
    parameter (parameterChars p ++ c :: rest) = some (p, c :: rest) := by
  obtain ⟨label, name, type, isInout, value⟩ := p
  simp only [Parameter.wellFormed, Bool.and_eq_true, Option.all_eq_true] at hp
  obtain ⟨⟨⟨hlabel, hname⟩, htype⟩, hvalue⟩ := hp
  have hend : starts isTypeChar (c :: rest) = false ∧ expect [' ', '=', ' '] (c :: rest) = none ∧
      secondType? (c :: rest) = none := by
    rcases hc with rfl | rfl <;> exact ⟨rfl, rfl, rfl⟩
  have hvalueRead := marked_append hvalue hend.1 hend.2.1
  -- what follows the type is the default value, or the end of the parameter
  have hfollows : starts isTypeChar (markedChars [' ', '=', ' '] value ++ c :: rest) = false ∧
      secondType? (markedChars [' ', '=', ' '] value ++ c :: rest) = none := by
    cases value with
    | none => exact ⟨hend.1, hend.2.2⟩
    | some value => exact ⟨rfl, rfl⟩
  have htypeRead := parameterType_append isInout htype hfollows.1 hfollows.2
  have hnameRead := parameterName_append (fun l hl => isWord_of_isIdentifier (hlabel l hl))
    (isWord_of_isIdentifier hname) (' ' :: (inoutChars isInout ++
      (type.toList ++ (markedChars [' ', '=', ' '] value ++ c :: rest))))
  simp only [parameterChars, List.append_assoc, List.cons_append]
  rw [parameter, hnameRead]
  simp [expect, htypeRead, hvalueRead]

theorem flatList_parameters (entries : List (Separated Parameter)) :
    flatList (Print.parameters entries) =
      '(' :: (separatedChars parameterChars entries ++ [')']) := by
  have hone (entry : Separated Parameter) : flatList (Print.parameter entry) =
      parameterChars entry.element ++ if entry.comma then [',', ' '] else [] := by
    obtain ⟨⟨label, name, type, isInout, value⟩, comma⟩ := entry
    cases isInout <;> cases comma <;>
      simp [Print.parameter, parameterChars, inoutChars, Print.comma, flatList_defaultValue,
        flatList, Command.flat]
  have hall : flatList (entries.flatMap Print.parameter) =
      separatedChars parameterChars entries := by
    induction entries with
    | nil => rfl
    | cons entry entries ih => simp [separatedChars, hone, ih]
  simp [Print.parameters, flatList, Command.flat, hall]

-- Parameters in parentheses, and the effects behind them.
def signature (cs : List Char) : Option ((List (Separated Parameter) × Effects) × List Char) := do
  let rest ← expect ['('] cs
  let (entries, rest) ← separated parameter ')' rest
  return ((entries, (effects rest).1), (effects rest).2)

theorem signature_append {entries : List Parameter} (h : ∀ p ∈ entries, p.wellFormed = true)
    (effs : Effects) {rest : List Char}
    (hrest : ∀ w ∈ ["async", "throws"], expect (spellEffect w) rest = none) :
    signature (flatList (Print.parameters (separate entries)) ++
        (flatList (Print.effects effs) ++ rest)) =
      some ((separate entries, effs), rest) := by
  have hentries := separated_reads (separated_eq_step parameter ')') (by decide) (fun _ => rfl)
    (fun p hp _ rest hc => parameter_append (h p hp) hc rest)
    (flatList (Print.effects effs) ++ rest)
  have heffects := effects_append effs hrest
  rw [flatList_parameters, List.cons_append, List.append_assoc, List.singleton_append, signature]
  simp [expect, hentries, heffects]

end SwiftSource.Parse

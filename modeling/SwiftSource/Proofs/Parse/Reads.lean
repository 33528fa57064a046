import SwiftSource.Proofs.Layout.Chars
import SwiftSource.Proofs.Parse.Expr

namespace SwiftSource

open Double (Numeral)

namespace Parse

-- What may stand behind a base. It belongs neither to a word nor to a numeral, and it makes no
-- call of what is in front.
structure Boundary (rest : List Char) : Prop where
  numeral : Numeral.ends rest = true
  word : starts isWordChar rest = false
  call : expect ['('] rest = none
  closure : expect [' ', '{', ' '] rest = none

-- What may stand behind an operand.
structure Stops (rest : List Char) : Prop extends Boundary rest where
  member : expect ['.'] rest = none

-- What may stand behind a whole expression.
structure Ends (rest : List Char) : Prop extends Stops rest where
  operator : operator rest = none
  colon : expect [' ', ':', ' '] rest = none

theorem ends_nil : Ends [] := ⟨⟨⟨rfl, rfl, rfl, rfl⟩, rfl⟩, rfl, rfl⟩

theorem ends_cons {c : Char} (hc : c ∈ [')', ']', ',', ':', '\n']) (rest : List Char) :
    Ends (c :: rest) := by
  simp only [List.mem_cons, List.not_mem_nil, or_false] at hc
  rcases hc with rfl | rfl | rfl | rfl | rfl <;> exact ⟨⟨⟨rfl, rfl, rfl, rfl⟩, rfl⟩, rfl, rfl⟩

theorem ends_brace (rest : List Char) : Ends (' ' :: '}' :: rest) :=
  ⟨⟨⟨rfl, rfl, rfl, rfl⟩, rfl⟩, rfl, rfl⟩

theorem ends_else (rest : List Char) : Ends (' ' :: 'e' :: rest) :=
  ⟨⟨⟨rfl, rfl, rfl, rfl⟩, rfl⟩, rfl, rfl⟩

theorem ends_block (rest : List Char) : Ends (' ' :: '{' :: '\n' :: rest) :=
  ⟨⟨⟨rfl, rfl, rfl, rfl⟩, rfl⟩, rfl, rfl⟩

theorem stops_colon (rest : List Char) : Stops (' ' :: ':' :: rest) :=
  ⟨⟨rfl, rfl, rfl, rfl⟩, rfl⟩

theorem stops_operator {op : String} (hop : isOperator op = true) (rest : List Char) :
    Stops (' ' :: (op.toList ++ rest)) := by
  obtain ⟨hne, hchars⟩ := isOperator_iff.mp hop
  obtain ⟨c, cs, hcs⟩ := List.exists_cons_of_ne_nil hne
  have hc : '{' ≠ c := by
    rintro rfl
    exact absurd (hchars '{' (by simp [hcs])) (by decide)
  refine ⟨⟨rfl, rfl, rfl, ?_⟩, rfl⟩
  simp [hcs, expect, hc]

theorem boundary_member {name : String} (hname : isWord name = true) (rest : List Char) :
    Boundary ('.' :: (name.toList ++ rest)) := by
  obtain ⟨hne, -, hdigit, -⟩ := isWord_iff.mp hname
  refine ⟨?_, rfl, rfl, rfl⟩
  simp [Numeral.ends, starts_append rest hne, hdigit]

-- Parsing finds the node again, in each of the places where it can stand.
structure Reads (node : ExprNode) : Prop where
  base : node.needsGroupingAsBase = false → ∀ {rest}, Boundary rest →
    operand (node.chars ++ rest) = suffixes node rest
  operand : node.isCompound = false → ∀ {rest}, Stops rest →
    operand (node.chars ++ rest) = some (node, rest)
  whole : ∀ {rest}, Ends rest → expr (node.chars ++ rest) = some (node, rest)

theorem suffixes_of_stops (node : ExprNode) {rest : List Char} (h : Stops rest) :
    suffixes node rest = some (node, rest) := by
  rw [suffixes, h.member]
  rfl

theorem expr_of_operand {node : ExprNode} {cs rest : List Char} (hrest : Ends rest)
    (h : Parse.operand cs = some (node, rest)) : expr cs = some (node, rest) := by
  rw [expr, h]
  simp [hrest.operator]

theorem needsGroupingAsBase_of_isCompound {node : ExprNode} (h : node.isCompound = true) :
    node.needsGroupingAsBase = true := by
  cases node <;> simp_all [ExprNode.isCompound, ExprNode.needsGroupingAsBase]

theorem Reads.of_base {node : ExprNode}
    (h : ∀ {rest}, Boundary rest → Parse.operand (node.chars ++ rest) = suffixes node rest) :
    Reads node := by
  have hoperand {rest : List Char} (hrest : Stops rest) :
      Parse.operand (node.chars ++ rest) = some (node, rest) := by
    rw [h hrest.toBoundary, suffixes_of_stops node hrest]
  exact ⟨fun _ _ => h, fun _ _ => hoperand,
    fun hrest => expr_of_operand hrest (hoperand hrest.toStops)⟩

theorem Reads.of_atom {node : ExprNode}
    (h : ∀ {rest}, Boundary rest → atom (node.chars ++ rest) = some (node, rest)) :
    Reads node := by
  have hne : node.chars ≠ [] := by
    intro hnil
    have hread := h ends_nil.toBoundary
    rw [hnil, List.nil_append, atom.eq_def] at hread
    cases hread
  refine .of_base fun {rest} hrest => ?_
  have := shorter_append_self hne rest
  rw [Parse.operand, h hrest]
  simp

theorem Reads.of_signed {node : ExprNode} (hbase : node.needsGroupingAsBase = true)
    (h : ∀ {rest}, Stops rest → Parse.operand (node.chars ++ rest) = some (node, rest)) :
    Reads node :=
  ⟨fun hfalse => by simp [hbase] at hfalse, fun _ _ => h,
    fun hrest => expr_of_operand hrest (h hrest.toStops)⟩

theorem Reads.of_compound {node : ExprNode} (hcompound : node.isCompound = true)
    (h : ∀ {rest}, Ends rest → expr (node.chars ++ rest) = some (node, rest)) : Reads node :=
  ⟨fun hfalse => by simp [needsGroupingAsBase_of_isCompound hcompound] at hfalse,
    fun hfalse => by simp [hcompound] at hfalse, h⟩

theorem Reads.parenthesized {node : ExprNode} (h : Reads node) : Reads (.parenthesized node) := by
  refine .of_atom fun {rest} _ => ?_
  have hinner : expr (node.chars ++ ')' :: rest) = some (node, ')' :: rest) :=
    h.whole (ends_cons (by simp) rest)
  rw [ExprNode.chars_parenthesized, atom.eq_def]
  simp [hinner, expect, isWordChar]

-- Parentheses are read where they are printed.
theorem Reads.asOperand {node : ExprNode} (h : Reads node) {rest : List Char}
    (hrest : Stops rest) :
    Parse.operand (node.asOperand.chars ++ rest) = some (node.asOperand, rest) := by
  cases hcompound : node.isCompound with
  | false =>
      have hsame : node.asOperand = node := by
        simp [ExprNode.asOperand, ExprNode.groupIf, hcompound]
      rw [hsame]
      exact h.operand hcompound hrest
  | true =>
      have hgroup : node.asOperand = .parenthesized node := by
        simp [ExprNode.asOperand, ExprNode.groupIf, hcompound]
      rw [hgroup]
      exact h.parenthesized.operand rfl hrest

theorem Reads.asBase {node : ExprNode} (h : Reads node) {rest : List Char}
    (hrest : Boundary rest) :
    Parse.operand (node.asBase.chars ++ rest) = suffixes node.asBase rest := by
  cases hbase : node.needsGroupingAsBase with
  | false =>
      have hsame : node.asBase = node := by simp [ExprNode.asBase, ExprNode.groupIf, hbase]
      rw [hsame]
      exact h.base hbase hrest
  | true =>
      have hgroup : node.asBase = .parenthesized node := by
        simp [ExprNode.asBase, ExprNode.groupIf, hbase]
      rw [hgroup]
      exact h.parenthesized.base rfl hrest

theorem Reads.asCondition {node : ExprNode} (h : Reads node) : Reads node.asCondition := by
  unfold ExprNode.asCondition ExprNode.groupIf
  split
  · exact h.parenthesized
  · exact h

-- A word that no parenthesis follows.
theorem atom_word {w : String} (hne : w.toList ≠ [])
    (hchars : ∀ c ∈ w.toList, isWordChar c = true)
    (hdigit : starts Char.isDigit w.toList = false) {rest : List Char} (hrest : Boundary rest) :
    atom (w.toList ++ rest) = some (wordNode w, rest) := by
  rw [atom.eq_def, starts_append rest hne, hdigit, starts_of_forall hne hchars rest]
  have hword : word (w.toList ++ rest) = some (w, rest) := token_append hne hchars hrest.word
  simp [hword, hrest.call]

theorem reads_reference {w : String} (hw : isWord w = true) : Reads (.reference w) := by
  obtain ⟨hne, hchars, hdigit, hliteral⟩ := isWord_iff.mp hw
  have hnode : wordNode w = .reference w := by
    simp only [literalWords, List.mem_cons, List.not_mem_nil, or_false, not_or] at hliteral
    simp [wordNode, hliteral]
  refine .of_atom fun hrest => ?_
  rw [ExprNode.chars_reference, atom_word hne hchars hdigit hrest, hnode]

theorem reads_bool (value : Bool) : Reads (.bool value) := by
  refine .of_atom fun hrest => ?_
  cases value with
  | false =>
      exact atom_word (w := "false") (by decide) (isWordChar_of_literalWords (by decide)) rfl hrest
  | true =>
      exact atom_word (w := "true") (by decide) (isWordChar_of_literalWords (by decide)) rfl hrest

theorem reads_nil : Reads .nil := by
  refine .of_atom fun hrest => ?_
  exact atom_word (w := "nil") (by decide) (isWordChar_of_literalWords (by decide)) rfl hrest

theorem reads_string (value : String) : Reads (.string value) := by
  refine .of_atom fun {rest} _ => ?_
  rw [ExprNode.chars_string, atom.eq_def]
  simp [quoted_escape, isWordChar]

section Arguments

theorem argument_chars {a : Argument ExprNode} (hlabel : ∀ l ∈ a.label, isWord l = true)
    (hvalue : Reads a.value) {rest : List Char} (hrest : Ends rest)
    (hcolon : expect [':', ' '] rest = none) :
    argument (argumentChars a ++ rest) = some (a, rest) := by
  obtain ⟨label, value⟩ := a
  have hexpr := hvalue.whole hrest
  cases label with
  | none =>
      have hnone : label? value rest = none := by cases value <;> simp [label?, hcolon]
      rw [argument]
      simp [argumentChars, Print.argumentLabel, Command.flatList, hexpr, hnone]
  | some l =>
      have hl := (reads_reference (hlabel l rfl)).whole
        (ends_cons (c := ':') (by simp) (' ' :: (value.chars ++ rest)))
      rw [ExprNode.chars_reference] at hl
      have hchars : argumentChars ⟨some l, value⟩ ++ rest =
          l.toList ++ ':' :: ' ' :: (value.chars ++ rest) := by
        simp [argumentChars, Print.argumentLabel, Command.flatList, Command.flat]
      rw [hchars, argument, hl]
      simp [label?, expect, hexpr]

theorem argument_close {close : Char} (hclose : close ∈ [')', ']']) (cs : List Char) :
    argument (close :: cs) = none := by
  simp only [List.mem_cons, List.not_mem_nil, or_false] at hclose
  rcases hclose with rfl | rfl
  · rw [argument, expr, Parse.operand, atom.eq_def]
    simp [isWordChar]
  · rw [argument, expr, Parse.operand, atom.eq_def]
    simp [isWordChar]

theorem arguments_separate {close : Char} (hclose : close ∈ [')', ']'])
    {entries : List (Argument ExprNode)}
    (hlabel : ∀ a ∈ entries, ∀ l ∈ a.label, isWord l = true)
    (hvalue : ∀ a ∈ entries, Reads a.value) (rest : List Char) :
    arguments close (separatedChars argumentChars (separate entries) ++ close :: rest) =
      some (separate entries, rest) := by
  have hstep (cs : List Char) :
      arguments close cs = separatedStep argument (arguments close) close cs := by
    rw [arguments]
    rfl
  have hcolon : ':' ≠ close ∧ close ≠ ',' := by
    simp only [List.mem_cons, List.not_mem_nil, or_false] at hclose
    rcases hclose with rfl | rfl <;> decide
  refine separated_reads hstep hcolon.2 (argument_close hclose) ?_ rest
  intro a ha c rest hc
  have hends : c ∈ [')', ']', ',', ':', '\n'] := by
    rcases hc with rfl | rfl
    · simp
    · exact List.mem_append_left [',', ':', '\n'] hclose
  have hlabelEnd : expect [':', ' '] (c :: rest) = none := by
    rcases hc with rfl | rfl
    · rfl
    · simp [expect, hcolon.1]
  exact argument_chars (hlabel a ha) (hvalue a ha) (ends_cons hends rest) hlabelEnd

theorem reads_call {w : String} (hw : isWord w = true) {entries : List (Argument ExprNode)}
    (hlabel : ∀ a ∈ entries, ∀ l ∈ a.label, isWord l = true)
    (hvalue : ∀ a ∈ entries, Reads a.value) :
    Reads (.call (.reference w) (separate entries) none) := by
  obtain ⟨hne, hchars, hdigit, -⟩ := isWord_iff.mp hw
  refine .of_atom fun {rest} _ => ?_
  let list := separatedChars argumentChars (separate entries) ++ ')' :: rest
  have htext : (ExprNode.call (.reference w) (separate entries) none).chars ++ rest =
      w.toList ++ '(' :: list := by
    simp [list, ExprNode.chars_call, ExprNode.chars_reference]
  have hword : word (w.toList ++ '(' :: list) = some (w, '(' :: list) := word_isWord hw rfl
  have hentries : arguments ')' list = some (separate entries, rest) :=
    arguments_separate (by simp) hlabel hvalue rest
  rw [htext, atom.eq_def, starts_append _ hne, hdigit, starts_of_forall hne hchars, hword]
  simp [expect, hentries]

theorem reads_method {base : ExprNode} (hbase : Reads base) {w : String} (hw : isWord w = true)
    {entries : List (Argument ExprNode)}
    (hlabel : ∀ a ∈ entries, ∀ l ∈ a.label, isWord l = true)
    (hvalue : ∀ a ∈ entries, Reads a.value) :
    Reads (.call (.member base.asBase w) (separate entries) none) := by
  refine .of_base fun {rest} _ => ?_
  let list := separatedChars argumentChars (separate entries) ++ ')' :: rest
  have htext : (ExprNode.call (.member base.asBase w) (separate entries) none).chars ++ rest =
      base.asBase.chars ++ '.' :: (w.toList ++ '(' :: list) := by
    simp [list, ExprNode.chars_call, ExprNode.chars_member]
  have hword : word (w.toList ++ '(' :: list) = some (w, '(' :: list) := word_isWord hw rfl
  have hentries : arguments ')' list = some (separate entries, rest) :=
    arguments_separate (by simp) hlabel hvalue rest
  rw [htext, hbase.asBase (boundary_member hw _), suffixes]
  simp [expect, hword, hentries]

theorem reads_array {elements : List ExprNode} (h : ∀ e ∈ elements, Reads e) :
    Reads (.array (separate elements)) := by
  refine .of_atom fun {rest} _ => ?_
  let list := separatedChars argumentChars (separate (elements.map (Argument.mk none))) ++
    ']' :: rest
  -- an element is an argument without a label
  have hsame (entries : List (Separated ExprNode)) : separatedChars ExprNode.chars entries =
      separatedChars argumentChars
        (entries.map fun entry => ⟨⟨none, entry.element⟩, entry.comma⟩) := by
    simp [separatedChars, List.flatMap_map, argumentChars, Print.argumentLabel, Command.flatList]
  have htext : (ExprNode.array (separate elements)).chars ++ rest = '[' :: list := by
    simp [list, ExprNode.chars_array, separate_map, hsame]
  have hentries : arguments ']' list = some (separate (elements.map (Argument.mk none)), rest) :=
    arguments_separate (by simp) (by simp) (by simpa using h) rest
  rw [htext, atom.eq_def]
  simp [isWordChar, hentries, separate_map, Function.comp_def]

end Arguments

theorem reads_member {base : ExprNode} (hbase : Reads base) {w : String} (hw : isWord w = true) :
    Reads (.member base.asBase w) := by
  refine .of_base fun {rest} hrest => ?_
  rw [ExprNode.chars_member, List.append_assoc, List.cons_append,
    hbase.asBase (boundary_member hw rest), suffixes]
  simp [expect, word_isWord hw hrest.word, hrest.call, hrest.closure]

theorem reads_forEach {base body : ExprNode} (hbase : Reads base) (hbody : Reads body)
    {element : String} (helement : isWord element = true) :
    Reads (.forEach base.asBase element body) := by
  refine .of_base fun {rest} _ => ?_
  let tail := body.chars ++ ' ' :: '}' :: rest
  let closure := element.toList ++ ' ' :: 'i' :: 'n' :: ' ' :: tail
  have hforEach : isWord "forEach" = true := by decide
  have htext : (ExprNode.forEach base.asBase element body).chars ++ rest =
      base.asBase.chars ++ '.' :: ("forEach".toList ++ ' ' :: '{' :: ' ' :: closure) := by
    simp [closure, tail, ExprNode.chars_forEach]
  have hword : word ("forEach".toList ++ ' ' :: '{' :: ' ' :: closure) =
      some ("forEach", ' ' :: '{' :: ' ' :: closure) := word_isWord hforEach rfl
  have hparameter : word closure = some (element, ' ' :: 'i' :: 'n' :: ' ' :: tail) :=
    word_isWord helement rfl
  have hinner : expr tail = some (body, ' ' :: '}' :: rest) := hbody.whole (ends_brace rest)
  rw [htext, hbase.asBase (boundary_member hforEach _), suffixes]
  simp only [expect, if_true, hword]
  simp [hparameter, expect, hinner, ExprNode.forEach, separate]

theorem reads_infixOp {left right : ExprNode} (hl : Reads left) (hr : Reads right) {op : String}
    (hop : isOperator op = true) : Reads (.infixOp left.asOperand op right.asOperand) := by
  refine .of_compound rfl fun {rest} hrest => ?_
  have htext : (ExprNode.infixOp left.asOperand op right.asOperand).chars ++ rest =
      left.asOperand.chars ++
        ' ' :: (op.toList ++ ' ' :: (right.asOperand.chars ++ rest)) := by
    simp [ExprNode.chars_infixOp]
  have hcolon : colon? op rest = none := by simp [colon?, hrest.colon]
  rw [htext, expr, hl.asOperand (stops_operator hop _)]
  simp [operator_append hop, hr.asOperand hrest.toStops, hcolon]

theorem reads_ternary {condition thenBranch elseBranch : ExprNode} (hc : Reads condition)
    (ht : Reads thenBranch) (he : Reads elseBranch) :
    Reads (.ternary condition.asOperand thenBranch.asOperand elseBranch.asOperand) := by
  refine .of_compound rfl fun {rest} hrest => ?_
  have htext : (ExprNode.ternary condition.asOperand thenBranch.asOperand
      elseBranch.asOperand).chars ++ rest =
      condition.asOperand.chars ++ ' ' :: ("?".toList ++ ' ' :: (thenBranch.asOperand.chars ++
        ' ' :: ':' :: ' ' :: (elseBranch.asOperand.chars ++ rest))) := by
    simp [ExprNode.chars_ternary]
  have hop : isOperator "?" = true := by decide
  have hcolon (cs : List Char) : colon? "?" (' ' :: ':' :: ' ' :: cs) = some cs := by
    simp [colon?, expect]
  rw [htext, expr, hc.asOperand (stops_operator hop _)]
  simp only [Option.bind_eq_bind, Option.bind_some, operator_append hop, after_of_shorter,
    ht.asOperand (stops_colon _), hcolon, he.asOperand hrest.toStops]
  rfl

end Parse

end SwiftSource

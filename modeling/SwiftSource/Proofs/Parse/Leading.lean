import SwiftSource.Proofs.Parse.Decoding
import SwiftSource.Proofs.Parse.Item

namespace SwiftSource.Parse

theorem leading_append {w : String} (hw : ∀ c ∈ w.toList, isWordChar c = true) {rest : List Char}
    (hrest : starts isWordChar rest = false) : leading (w.toList ++ rest) = w := by
  have hspan := span_append hw hrest
  rw [List.span_eq_takeWhile_dropWhile] at hspan
  rw [leading, (Prod.mk.inj hspan).1, String.ofList_toList]

theorem leading_of_not_starts {cs : List Char} (h : starts isWordChar cs = false) :
    leading cs = "" := by
  have hempty := leading_append (w := "") (by simp) h
  simpa using hempty

-- No keyword is in front of the text of the node.
def Unheaded (node : ExprNode) : Prop :=
  ∀ rest, starts isWordChar rest = false → leading (node.chars ++ rest) ∉ keywords

theorem leading_notMem_of_digit {cs : List Char} (h : starts Char.isDigit cs = true) :
    leading cs ∉ keywords := by
  have hkeywords : ∀ w ∈ keywords, starts Char.isDigit w.toList = false := by decide
  cases cs with
  | nil => cases h
  | cons c cs =>
      have hc : c.isDigit = true := h
      have hword : isWordChar c = true := by simp [isWordChar, Char.isAlphanum, hc]
      intro hmem
      have hfirst := hkeywords _ hmem
      simp [leading, hword, hc] at hfirst

-- A character in front that no keyword begins with.
theorem unheaded_of_cons {node : ExprNode} {c : Char} {cs : List Char} (hcs : node.chars = c :: cs)
    (hc : c.isDigit = true ∨ isWordChar c = false) : Unheaded node := by
  intro rest _
  rw [hcs]
  rcases hc with hc | hc
  · exact leading_notMem_of_digit hc
  · have hempty : leading (c :: cs ++ rest) = "" := leading_of_not_starts hc
    rw [hempty]
    decide

theorem unheaded_of_word {node : ExprNode} {w : String} (hnode : node.chars = w.toList)
    (hword : ∀ c ∈ w.toList, isWordChar c = true) (hw : w ∉ keywords) : Unheaded node := by
  intro rest hrest
  rw [hnode, leading_append hword hrest]
  exact hw

theorem unheaded_reference {w : String} (hw : isIdentifier w = true) :
    Unheaded (.reference w) := by
  simp only [isIdentifier, Bool.and_eq_true, Bool.not_eq_true', List.contains_eq_mem,
    decide_eq_false_iff_not] at hw
  exact unheaded_of_word (ExprNode.chars_reference w) (isWord_iff.mp hw.1).2.1 hw.2

-- A node whose text goes on from that of another one with something that is no word.
theorem Unheaded.extend {front node : ExprNode} (h : Unheaded front) {c : Char} {cs : List Char}
    (hnode : node.chars = front.chars ++ c :: cs) (hc : isWordChar c = false) :
    Unheaded node := by
  intro rest _
  rw [hnode, List.append_assoc]
  exact h _ hc

theorem Unheaded.groupIf {node : ExprNode} (needed : Bool) (h : Unheaded node) :
    Unheaded (node.groupIf needed) := by
  unfold ExprNode.groupIf
  split
  · exact unheaded_of_cons (ExprNode.chars_parenthesized node) (Or.inr rfl)
  · exact h

theorem IsNumber.unheaded {node : ExprNode} (h : IsNumber node) : Unheaded node := by
  obtain ⟨n, hn, rfl | rfl⟩ := h
  · obtain ⟨c, cs, hchars, hc⟩ := hn.head_isDigit
    exact unheaded_of_cons ((chars_numberNode [] n).trans hchars) (Or.inl hc)
  · exact unheaded_of_cons (chars_numberNode ['-'] n) (Or.inr rfl)

theorem unheaded_constant (name : String) : Unheaded (.member (.reference "Double") name) :=
  (unheaded_reference (w := "Double") (by decide)).extend (ExprNode.chars_member _ name) rfl

theorem unheaded_literal (l : Literal) : Unheaded l.node := by
  cases l with
  | int value => exact (isNumber_integer value.toInt).unheaded
  | double x =>
      rw [Literal.node]
      rcases x.node_cases with ⟨-, hnode⟩ | ⟨-, -, hnode⟩ | ⟨-, -, hnode⟩ | ⟨m, hkind, hnode⟩
      · rw [hnode]
        exact unheaded_constant _
      · rw [hnode]
        exact unheaded_constant _
      · rw [hnode]
        exact unheaded_of_cons (ExprNode.chars_prefixOp _ _) (Or.inr rfl)
      · rw [hnode]
        exact (isNumber_finite hkind).unheaded
  | string value => exact unheaded_of_cons (ExprNode.chars_string value) (Or.inr rfl)
  | bool value =>
      cases value with
      | false =>
          exact unheaded_of_word (w := "false") rfl (isWordChar_of_literalWords (by decide))
            (by decide)
      | true =>
          exact unheaded_of_word (w := "true") rfl (isWordChar_of_literalWords (by decide))
            (by decide)
  | nil =>
      exact unheaded_of_word (w := "nil") rfl (isWordChar_of_literalWords (by decide)) (by decide)

variable {α : Type}

theorem unheaded_node {e : Expr α} (he : e.wellFormed isIdentifier = true) : Unheaded e.node := by
  induction e using Expr.induction with
  | literal value => exact unheaded_literal value
  | reference name payload => exact unheaded_reference he
  | conditional condition thenBranch elseBranch hc ht hf =>
      simp only [Expr.wellFormed, Bool.and_eq_true] at he
      exact ((hc he.1.1).groupIf _).extend (ExprNode.chars_ternary _ _ _) rfl
  | loop element collection body hc hb =>
      simp only [Expr.wellFormed, Bool.and_eq_true] at he
      exact ((hc he.1.2).groupIf _).extend (ExprNode.chars_forEach _ _ _) rfl
  | call name arguments ih =>
      simp only [Expr.wellFormed, Bool.and_eq_true] at he
      rw [Expr.node_call]
      exact (unheaded_reference he.1).extend (ExprNode.chars_call _ _) rfl
  | method base name arguments hb ih =>
      simp only [Expr.wellFormed, Bool.and_eq_true] at he
      rw [Expr.node_method]
      have hmember : Unheaded (.member base.node.asBase name) :=
        ((hb he.1.1).groupIf _).extend (ExprNode.chars_member _ name) rfl
      exact hmember.extend (ExprNode.chars_call _ _) rfl
  | binary left operator right hl hr =>
      simp only [Expr.wellFormed, Bool.and_eq_true] at he
      exact ((hl he.1.1).groupIf _).extend (ExprNode.chars_infixOp _ _ _) rfl
  | property base name hb =>
      simp only [Expr.wellFormed, Bool.and_eq_true] at he
      exact ((hb he.1).groupIf _).extend (ExprNode.chars_member _ name) rfl
  | inline name type initializer ih => exact ih he
  | array elements ih =>
      rw [Expr.node_array]
      exact unheaded_of_cons (ExprNode.chars_array _) (Or.inr rfl)

end SwiftSource.Parse

import SwiftSource.Proofs.Double.Numeral
import SwiftSource.Proofs.Render.Node
import SwiftSource.Proofs.Tree.Induction

namespace SwiftSource

variable {α : Type}

-- Where parentheses are printed, said of trees. Rendering decides it on nodes.

namespace Expr

-- Inline declarations leave no trace in the text.
def unwrapped : Expr α → Expr α
  | .inline _ _ initializer => initializer.unwrapped
  | e => e

def isOperation (e : Expr α) : Bool :=
  match e.unwrapped with
  | .binary .. => true
  | .conditional .. => true
  | _ => false

-- In front of a point, what begins with a sign is grouped too.
def isLooseBase (e : Expr α) : Bool :=
  match e.unwrapped with
  | .binary .. => true
  | .conditional .. => true
  | .literal (.int value) => decide (value < 0)
  | .literal (.double x) => x.isNegative && x.kind != .nan
  | _ => false

-- Whether the text shows the brace of a closure outside of all parentheses and brackets.
def showsBrace : Expr α → Bool
  | .conditional condition thenBranch elseBranch =>
    (! condition.isOperation && condition.showsBrace) ||
      (! thenBranch.isOperation && thenBranch.showsBrace) ||
      (! elseBranch.isOperation && elseBranch.showsBrace)
  | .loop _ _ _ => true
  | .method base _ _ => ! base.isLooseBase && base.showsBrace
  | .binary left _ right =>
    (! left.isOperation && left.showsBrace) || (! right.isOperation && right.showsBrace)
  | .property base _ => ! base.isLooseBase && base.showsBrace
  | .inline _ _ initializer => initializer.showsBrace
  | _ => false

end Expr

theorem head?_ne_minus {ds : List Char} (h : ∀ c ∈ ds, c.isDigit = true) :
    (ds.head? == some '-') = false := by
  cases ds with
  | nil => rfl
  | cons c ds =>
      have hne : c ≠ '-' := by
        rintro rfl
        exact absurd (h '-' List.mem_cons_self) (by decide)
      simpa using hne

theorem head?_toString (k : Int) :
    ((toString k).toList.head? == some '-') = decide (k < 0) := by
  rcases Int.lt_or_le k 0 with hk | hk
  · rw [Parse.toList_toString_of_neg hk]
    simp [hk]
  · rw [Parse.toList_toString_of_nonneg hk, head?_ne_minus fun _ => Parse.isDigit_of_mem_toDigits]
    simp [hk]

namespace Double

theorem head?_signedNumeral {x : Double} {m : Magnitude} (h : x.kind = .finite m) :
    ((signedNumeral x.isNegative m).toList.head? == some '-') = x.isNegative := by
  obtain ⟨n, hn, -, hchars, -⟩ := Magnitude.exists_numeral (kind_finite h).1
  cases hsign : x.isNegative with
  | true => simp [signedNumeral]
  | false =>
      have hhead : m.numeral.head? = n.whole.head? := by
        obtain ⟨c, cs, hcs⟩ := List.exists_cons_of_ne_nil hn.whole_ne
        rw [← hchars, Numeral.chars, hcs]
        rfl
      have htext : (signedNumeral false m).toList = m.numeral := by simp [signedNumeral]
      rw [htext, hhead, head?_ne_minus hn.whole]

theorem isCompound_node (x : Double) : x.node.isCompound = false := by
  rcases x.node_cases with ⟨-, h⟩ | ⟨-, -, h⟩ | ⟨-, -, h⟩ | ⟨m, -, h⟩ <;> rw [h] <;> rfl

-- A sign is printed for every negative double but a NaN, zero and infinity included.
theorem needsGroupingAsBase_node (x : Double) :
    x.node.needsGroupingAsBase = (x.isNegative && x.kind != .nan) := by
  rcases x.node_cases with ⟨hkind, h⟩ | ⟨hkind, hsign, h⟩ | ⟨hkind, hsign, h⟩ | ⟨m, hkind, h⟩
  · rw [h, hkind]
    simp [ExprNode.needsGroupingAsBase, ExprNode.isCompound]
  · rw [h, hkind, hsign]
    rfl
  · rw [h, hkind, hsign]
    rfl
  · have hne : (Kind.finite m != .nan) = true := rfl
    rw [h, hkind, hne, Bool.and_true]
    exact head?_signedNumeral hkind

theorem needsGroupingAsCondition_node (x : Double) : x.node.needsGroupingAsCondition = false := by
  rcases x.node_cases with ⟨-, h⟩ | ⟨-, -, h⟩ | ⟨-, -, h⟩ | ⟨m, -, h⟩ <;> rw [h] <;> rfl

end Double

namespace Expr

theorem isCompound_node (e : Expr α) : e.node.isCompound = e.isOperation := by
  induction e using Expr.induction with
  | literal value =>
      cases value with
      | double x => exact x.isCompound_node
      | _ => rfl
  | inline name type initializer ih => exact ih
  | call name arguments _ => rw [node_call]; rfl
  | method base name arguments _ _ => rw [node_method]; rfl
  | array elements _ => rw [node_array]; rfl
  | _ => rfl

theorem needsGroupingAsBase_node (e : Expr α) : e.node.needsGroupingAsBase = e.isLooseBase := by
  induction e using Expr.induction with
  | literal value =>
      cases value with
      | int value =>
          have hsign : decide (value.toInt < 0) = decide (value < 0) := by
            simp [Int64.lt_iff_toInt_lt]
          exact (head?_toString value.toInt).trans hsign
      | double x => exact x.needsGroupingAsBase_node
      | _ => rfl
  | inline name type initializer ih => exact ih
  | call name arguments _ => rw [node_call]; rfl
  | method base name arguments _ _ => rw [node_method]; rfl
  | array elements _ => rw [node_array]; rfl
  | _ => rfl

end Expr

-- Parentheses hide every brace inside them.
theorem ExprNode.needsGroupingAsCondition_groupIf (node : ExprNode) (needed : Bool) :
    (node.groupIf needed).needsGroupingAsCondition =
      (! needed && node.needsGroupingAsCondition) := by
  cases needed with
  | true => rfl
  | false => rfl

namespace Expr

theorem needsGroupingAsCondition_asOperand {e : Expr α}
    (h : e.node.needsGroupingAsCondition = e.showsBrace) :
    e.node.asOperand.needsGroupingAsCondition = (! e.isOperation && e.showsBrace) := by
  rw [ExprNode.asOperand, ExprNode.needsGroupingAsCondition_groupIf, isCompound_node, h]

theorem needsGroupingAsCondition_asBase {e : Expr α}
    (h : e.node.needsGroupingAsCondition = e.showsBrace) :
    e.node.asBase.needsGroupingAsCondition = (! e.isLooseBase && e.showsBrace) := by
  rw [ExprNode.asBase, ExprNode.needsGroupingAsCondition_groupIf, needsGroupingAsBase_node, h]

theorem needsGroupingAsCondition_node (e : Expr α) :
    e.node.needsGroupingAsCondition = e.showsBrace := by
  induction e using Expr.induction with
  | literal value =>
      cases value with
      | double x => exact x.needsGroupingAsCondition_node
      | _ => rfl
  | reference name payload => rfl
  | conditional condition thenBranch elseBranch hc ht he =>
      simp [ExprNode.needsGroupingAsCondition, showsBrace, needsGroupingAsCondition_asOperand hc,
        needsGroupingAsCondition_asOperand ht, needsGroupingAsCondition_asOperand he]
  | loop element collection body _ _ => rfl
  | call name arguments _ =>
      rw [node_call]
      rfl
  | method base name arguments hb _ =>
      simp [ExprNode.needsGroupingAsCondition, showsBrace, needsGroupingAsCondition_asBase hb]
  | binary left operator right hl hr =>
      simp [ExprNode.needsGroupingAsCondition, showsBrace, needsGroupingAsCondition_asOperand hl,
        needsGroupingAsCondition_asOperand hr]
  | property base name hb =>
      simp [ExprNode.needsGroupingAsCondition, showsBrace, needsGroupingAsCondition_asBase hb]
  | inline name type initializer ih => exact ih
  | array elements _ =>
      rw [node_array]
      rfl

end Expr

end SwiftSource

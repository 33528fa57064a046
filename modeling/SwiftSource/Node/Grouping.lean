import SwiftSource.Node.Basic

namespace SwiftSource.ExprNode

-- Operators bind looser than anything else that can be printed.
def isCompound : ExprNode → Bool
  | .infixOp .. => true
  | .ternary .. => true
  | _ => false

-- In front of `.member` a sign, an operator or a closure would take the member to itself.
def needsGroupingAsBase : ExprNode → Bool
  | .integer text => text.toList.head? == some '-'
  | .float text => text.toList.head? == some '-'
  | .prefixOp .. => true
  | .closure _ => true
  | node => node.isCompound

-- A closure that is not enclosed in parentheses or brackets would be read as the body of the
-- statement whose condition holds it.
def needsGroupingAsCondition : ExprNode → Bool
  | .closure _ => true
  | .call callee _ trailing => trailing.isSome || callee.needsGroupingAsCondition
  | .member base _ => base.needsGroupingAsCondition
  | .prefixOp _ operand => operand.needsGroupingAsCondition
  | .infixOp left _ right => left.needsGroupingAsCondition || right.needsGroupingAsCondition
  | .ternary condition thenBranch elseBranch =>
    condition.needsGroupingAsCondition || thenBranch.needsGroupingAsCondition ||
      elseBranch.needsGroupingAsCondition
  | _ => false

def groupIf (needed : Bool) (node : ExprNode) : ExprNode :=
  if needed then .parenthesized node else node

def asOperand (node : ExprNode) : ExprNode :=
  node.groupIf node.isCompound

def asBase (node : ExprNode) : ExprNode :=
  node.groupIf node.needsGroupingAsBase

def asCondition (node : ExprNode) : ExprNode :=
  node.groupIf node.needsGroupingAsCondition

end SwiftSource.ExprNode

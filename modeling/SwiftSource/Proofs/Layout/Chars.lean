import SwiftSource.Node.Grouping
import SwiftSource.Node.Print
import SwiftSource.Proofs.Layout.Flat
import SwiftSource.Proofs.Parse.Separated
import SwiftSource.Render.Expr

namespace SwiftSource

open Command (flatList flatItems)
open Parse (separatedChars)

-- What is printed for a node, once margins are left out.

attribute [local simp] Print.expr Print.stmt Print.item flatList

def ExprNode.chars (node : ExprNode) : List Char :=
  flatList (Print.expr node)

-- An argument with its label.
def argumentChars (a : Argument ExprNode) : List Char :=
  flatList (Print.argumentLabel a.label) ++ a.value.chars

@[simp]
theorem flatList_comma (follows : Bool) :
    flatList (Print.comma follows) = if follows then [',', ' '] else [] := by
  cases follows <;> simp [Print.comma, Command.flat]

theorem flatList_argumentList (entries : List (Separated (Argument ExprNode))) :
    flatList (Print.argumentList entries) = separatedChars argumentChars entries := by
  induction entries with
  | nil => rfl
  | cons entry entries ih =>
      obtain ⟨⟨label, value⟩, comma⟩ := entry
      simp [Print.argumentList, Print.argument, separatedChars, argumentChars, ExprNode.chars, ih]

theorem flatList_elementList (elements : List (Separated ExprNode)) :
    flatList (Print.elementList elements) = separatedChars ExprNode.chars elements := by
  induction elements with
  | nil => rfl
  | cons entry elements ih => simp [Print.elementList, separatedChars, ExprNode.chars, ih]

namespace ExprNode

theorem chars_reference (name : String) : (reference name).chars = name.toList := by
  simp [chars, Command.flat]

theorem chars_string (value : String) :
    (string value).chars = '"' :: (Text.escape Text.isControl value.toList ++ ['"']) := by
  simp [chars, Command.flat, Text.stringLiteral, Text.quote]

theorem chars_ternary (condition thenBranch elseBranch : ExprNode) :
    (ternary condition thenBranch elseBranch).chars =
      condition.chars ++ ' ' :: '?' :: ' ' ::
        (thenBranch.chars ++ ' ' :: ':' :: ' ' :: elseBranch.chars) := by
  simp [chars, Command.flat]

theorem chars_infixOp (left : ExprNode) (operator : String) (right : ExprNode) :
    (infixOp left operator right).chars =
      left.chars ++ ' ' :: (operator.toList ++ ' ' :: right.chars) := by
  simp [chars, Command.flat]

theorem chars_prefixOp (operator : String) (operand : ExprNode) :
    (prefixOp operator operand).chars = operator.toList ++ operand.chars := by
  simp [chars, Command.flat]

theorem chars_member (base : ExprNode) (name : String) :
    (member base name).chars = base.chars ++ '.' :: name.toList := by
  simp [chars, Command.flat]

theorem chars_call (callee : ExprNode) (entries : List (Separated (Argument ExprNode))) :
    (call callee entries none).chars =
      callee.chars ++ '(' :: (separatedChars argumentChars entries ++ [')']) := by
  simp [chars, Print.trailingClosure, Command.flat, flatList_argumentList]

theorem chars_forEach (base : ExprNode) (element : String) (body : ExprNode) :
    (forEach base element body).chars =
      base.chars ++ '.' :: ("forEach".toList ++ ' ' :: '{' :: ' ' ::
        (element.toList ++ ' ' :: 'i' :: 'n' :: ' ' :: (body.chars ++ [' ', '}']))) := by
  simp [forEach, separate, chars, Print.trailingClosure, Print.closureBody,
    Print.inlineBlock, Print.names, Print.comma, Print.items, Command.flat]

theorem chars_array (elements : List (Separated ExprNode)) :
    (array elements).chars = '[' :: (separatedChars chars elements ++ [']']) := by
  simp [chars, Command.flat, flatList_elementList]

theorem chars_parenthesized (node : ExprNode) :
    (parenthesized node).chars = '(' :: (node.chars ++ [')']) := by
  simp [chars, Command.flat]

end ExprNode

-- The text of an item, whose blocks go over several lines.
def ItemNode.chars (node : ItemNode) : List Char :=
  flatList (Print.item node)

theorem flat_write (text : String) : (Command.write text).flat = text.toList := rfl

-- A block opens with a brace at the end of the line.
theorem flat_block_append (lines : List (List Command)) (rest : List Char) :
    ∃ tail, (Command.block lines).flat ++ rest = '{' :: '\n' :: tail := by
  cases lines with
  | nil => exact ⟨_, rfl⟩
  | cons line lines => exact ⟨_, rfl⟩

namespace ItemNode

variable (condition value : ExprNode) (body : List ItemNode)

theorem chars_guard :
    (stmt (.guard condition body)).chars =
      "guard".toList ++ ' ' :: (condition.chars ++
        ' ' :: 'e' :: 'l' :: 's' :: 'e' :: ' ' :: (Command.block (Print.items body)).flat) := by
  simp [chars, flat_write, ExprNode.chars]

theorem chars_branch (elseBody : Option (List ItemNode)) :
    (stmt (.branch condition body elseBody)).chars =
      "if".toList ++ ' ' :: (condition.chars ++ ' ' ::
        ((Command.block (Print.items body)).flat ++ flatList (Print.elseClause elseBody))) := by
  simp [chars, flat_write, ExprNode.chars]

theorem flatList_elseClause :
    flatList (Print.elseClause (some body)) =
      ' ' :: 'e' :: 'l' :: 's' :: 'e' :: ' ' :: (Command.block (Print.items body)).flat := by
  simp [Print.elseClause, flat_write]

theorem chars_returns :
    (stmt (.returns (some value))).chars = "return".toList ++ ' ' :: value.chars := by
  simp [chars, flat_write, ExprNode.chars]

theorem chars_throws :
    (stmt (.throws value)).chars = "throw".toList ++ ' ' :: value.chars := by
  simp [chars, flat_write, ExprNode.chars]

theorem chars_defer :
    (stmt (.defer body)).chars =
      "defer".toList ++ ' ' :: (Command.block (Print.items body)).flat := by
  simp [chars, flat_write]

end ItemNode

end SwiftSource

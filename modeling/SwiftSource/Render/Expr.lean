import SwiftSource.Double.Numeral
import SwiftSource.Node.Grouping
import SwiftSource.Render.Logged
import SwiftSource.Tree.Basic

namespace SwiftSource

-- Not every double has a literal: the others are members of `Double`.
def Double.node (x : Double) : ExprNode :=
  match x.kind with
  | .nan => .member (.reference "Double") "nan"
  | .infinite =>
    let infinity := ExprNode.member (.reference "Double") "infinity"
    if x.isNegative then .prefixOp "-" infinity else infinity
  | .finite magnitude => .float (signedNumeral x.isNegative magnitude)

def Literal.node : Literal → ExprNode
  | .int value => .integer (toString value.toInt)
  | .double value => value.node
  | .string value => .string value
  | .bool value => .bool value
  | .nil => .nil

-- `collection.forEach { element in body }`
def ExprNode.forEach (collection : ExprNode) (element : String) (body : ExprNode) : ExprNode :=
  .call (.member collection "forEach") [] (some ⟨separate [element], [.expr body]⟩)

namespace Expr

variable {α : Type}

mutual

-- A loop becomes a call that runs a closure, and an inline declaration its initializer alone.
-- Payloads are left behind.
def render : Expr α → Logged ExprNode
  | .literal value => pure value.node
  | .variable name _ => pure (.reference name)
  | .conditional condition thenBranch elseBranch => do
    let condition ← condition.render
    let thenBranch ← thenBranch.render
    let elseBranch ← elseBranch.render
    return .ternary condition.asOperand thenBranch.asOperand elseBranch.asOperand
  | .loop element collection body => do
    Logged.log (.loop element)
    let collection ← collection.render
    let body ← body.render
    return .forEach collection.asBase element body
  | .call name arguments => do
    let arguments ← renderArguments arguments
    return .call (.reference name) (separate arguments) none
  | .method base name arguments => do
    let base ← base.render
    let arguments ← renderArguments arguments
    return .call (.member base.asBase name) (separate arguments) none
  | .binary left operator right => do
    let left ← left.render
    let right ← right.render
    return .infixOp left.asOperand operator right.asOperand
  | .property base name => do
    let base ← base.render
    return .member base.asBase name
  | .inline name _ initializer => do
    Logged.log (.inline name)
    initializer.render
  | .array elements => do
    let elements ← renderElements elements
    return .array (separate elements)

def renderArguments : List (Argument (Expr α)) → Logged (List (Argument ExprNode))
  | [] => pure []
  | ⟨label, value⟩ :: rest => do
    let value ← value.render
    let rest ← renderArguments rest
    return ⟨label, value⟩ :: rest

def renderElements : List (Expr α) → Logged (List ExprNode)
  | [] => pure []
  | value :: rest => do
    let value ← value.render
    let rest ← renderElements rest
    return value :: rest

end

def renderOption : Option (Expr α) → Logged (Option ExprNode)
  | none => pure none
  | some value => do
    let value ← value.render
    return some value

def node (e : Expr α) : ExprNode := e.render.value

@[simp]
theorem node_literal (value : Literal) : (.literal value : Expr α).node = value.node := rfl

@[simp]
theorem node_variable (name : String) (payload : α) :
    (Expr.variable name payload).node = .reference name := rfl

@[simp]
theorem node_conditional (condition thenBranch elseBranch : Expr α) :
    (Expr.conditional condition thenBranch elseBranch).node =
      .ternary condition.node.asOperand thenBranch.node.asOperand elseBranch.node.asOperand := rfl

@[simp]
theorem node_loop (element : String) (collection body : Expr α) :
    (Expr.loop element collection body).node =
      .forEach collection.node.asBase element body.node := rfl

@[simp]
theorem value_renderArguments (arguments : List (Argument (Expr α))) :
    (renderArguments arguments).value = arguments.map fun a => ⟨a.label, a.value.node⟩ := by
  induction arguments with
  | nil => rfl
  | cons a rest ih =>
    have hcons : (renderArguments (a :: rest)).value =
        ⟨a.label, a.value.node⟩ :: (renderArguments rest).value := rfl
    rw [hcons, ih, List.map_cons]

@[simp]
theorem value_renderElements (elements : List (Expr α)) :
    (renderElements elements).value = elements.map node := by
  induction elements with
  | nil => rfl
  | cons e rest ih =>
    have hcons : (renderElements (e :: rest)).value = e.node :: (renderElements rest).value := rfl
    rw [hcons, ih, List.map_cons]

@[simp]
theorem node_call (name : String) (arguments : List (Argument (Expr α))) :
    (Expr.call name arguments).node =
      .call (.reference name) (separate (arguments.map fun a => ⟨a.label, a.value.node⟩)) none := by
  rw [← value_renderArguments]
  rfl

@[simp]
theorem node_method (base : Expr α) (name : String) (arguments : List (Argument (Expr α))) :
    (Expr.method base name arguments).node =
      .call (.member base.node.asBase name)
        (separate (arguments.map fun a => ⟨a.label, a.value.node⟩)) none := by
  rw [← value_renderArguments]
  rfl

@[simp]
theorem node_binary (left : Expr α) (operator : String) (right : Expr α) :
    (Expr.binary left operator right).node =
      .infixOp left.node.asOperand operator right.node.asOperand := rfl

@[simp]
theorem node_property (base : Expr α) (name : String) :
    (Expr.property base name).node = .member base.node.asBase name := rfl

@[simp]
theorem node_inline (name : String) (type : Option String) (initializer : Expr α) :
    (Expr.inline name type initializer).node = initializer.node := rfl

@[simp]
theorem node_array (elements : List (Expr α)) :
    (Expr.array elements).node = .array (separate (elements.map node)) := by
  rw [← value_renderElements]
  rfl

end Expr

end SwiftSource

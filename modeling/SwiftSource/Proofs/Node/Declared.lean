import SwiftSource.Node.Grouping

namespace SwiftSource

namespace Declared

mutual

-- The declarations in a node, in source order. A declaration comes before those inside it, and
-- closures, blocks and accessors are searched like everything else.
def expr : ExprNode → List DeclNode
  | .integer _ => []
  | .float _ => []
  | .string _ => []
  | .bool _ => []
  | .nil => []
  | .reference _ => []
  | .ternary condition thenBranch elseBranch =>
    expr condition ++ expr thenBranch ++ expr elseBranch
  | .infixOp left _ right => expr left ++ expr right
  | .prefixOp _ operand => expr operand
  | .member base _ => expr base
  | .call callee arguments trailing =>
    expr callee ++ argumentList arguments ++ trailingClosure trailing
  | .closure closure => closureBody closure
  | .array elements => elementList elements
  | .parenthesized inner => expr inner

def optionalExpr : Option ExprNode → List DeclNode
  | none => []
  | some value => expr value

def argumentList : List (Separated (Argument ExprNode)) → List DeclNode
  | [] => []
  | ⟨⟨_, value⟩, _⟩ :: rest => expr value ++ argumentList rest

def elementList : List (Separated ExprNode) → List DeclNode
  | [] => []
  | ⟨value, _⟩ :: rest => expr value ++ elementList rest

def closureBody : Closure ItemNode → List DeclNode
  | ⟨_, statements⟩ => items statements

def trailingClosure : Option (Closure ItemNode) → List DeclNode
  | none => []
  | some closure => closureBody closure

def stmt : StmtNode → List DeclNode
  | .guard condition body => expr condition ++ items body
  | .branch condition body elseBody => expr condition ++ items body ++ elseItems elseBody
  | .returns value => optionalExpr value
  | .throws value => expr value
  | .defer body => items body

def elseItems : Option (List ItemNode) → List DeclNode
  | none => []
  | some body => items body

def decl : DeclNode → List DeclNode
  | .variable modifiers binding name type initializer accessorList =>
    .variable modifiers binding name type initializer accessorList ::
      (optionalExpr initializer ++ accessorClause accessorList)
  | .function modifiers name parameters effects returnType body =>
    .function modifiers name parameters effects returnType body :: items body
  | .initializer modifiers parameters effects body =>
    .initializer modifiers parameters effects body :: items body
  | .extension type inheritance memberList =>
    .extension type inheritance memberList :: members memberList
  | .struct modifiers name inheritance memberList =>
    .struct modifiers name inheritance memberList :: members memberList

def accessors : List (Accessor ItemNode) → List DeclNode
  | [] => []
  | ⟨_, _, body⟩ :: rest => items body ++ accessors rest

def accessorClause : Option (List (Accessor ItemNode)) → List DeclNode
  | none => []
  | some entries => accessors entries

def members : List DeclNode → List DeclNode
  | [] => []
  | member :: rest => decl member ++ members rest

def item : ItemNode → List DeclNode
  | .decl node => decl node
  | .stmt node => stmt node
  | .expr node => expr node

def items : List ItemNode → List DeclNode
  | [] => []
  | entry :: rest => item entry ++ items rest

end

attribute [simp] expr optionalExpr closureBody trailingClosure stmt elseItems decl accessorClause
  item

-- Commas declare nothing.

@[simp]
theorem argumentList_separate (arguments : List (Argument ExprNode)) :
    argumentList (separate arguments) = arguments.flatMap fun a => expr a.value := by
  have heq (entries : List (Separated (Argument ExprNode))) :
      argumentList entries = (entries.map Separated.element).flatMap fun a => expr a.value := by
    induction entries with
    | nil => rfl
    | cons entry rest ih => rw [argumentList, ih, List.map_cons, List.flatMap_cons]
  rw [heq, map_element_separate]

@[simp]
theorem elementList_separate (elements : List ExprNode) :
    elementList (separate elements) = elements.flatMap expr := by
  have heq (entries : List (Separated ExprNode)) :
      elementList entries = (entries.map Separated.element).flatMap expr := by
    induction entries with
    | nil => rfl
    | cons entry rest ih => rw [elementList, ih, List.map_cons, List.flatMap_cons]
  rw [heq, map_element_separate]

-- Neither do parentheses.
@[simp]
theorem expr_groupIf (needed : Bool) (node : ExprNode) :
    expr (node.groupIf needed) = expr node := by
  cases needed with
  | false => rfl
  | true => rfl

@[simp]
theorem accessors_eq (entries : List (Accessor ItemNode)) :
    accessors entries = entries.flatMap fun a => items a.body := by
  induction entries with
  | nil => rfl
  | cons a rest ih => rw [accessors, ih, List.flatMap_cons]

@[simp]
theorem members_eq (nodes : List DeclNode) : members nodes = nodes.flatMap decl := by
  induction nodes with
  | nil => rfl
  | cons member rest ih => rw [members, ih, List.flatMap_cons]

theorem items_eq (nodes : List ItemNode) : items nodes = nodes.flatMap item := by
  induction nodes with
  | nil => rfl
  | cons entry rest ih => rw [items, ih, List.flatMap_cons]

end Declared

-- The name of a variable that shows neither a type nor a value nor accessors.
def DeclNode.bareName? : DeclNode → Option String
  | .variable _ _ name none none none => some name
  | _ => none

-- The names of all such variables in a list of declarations, in source order.
def bareNames (nodes : List DeclNode) : List String :=
  (Declared.members nodes).filterMap DeclNode.bareName?

-- A closure in the value of a variable is searched, as is a body in it.
example :
    bareNames [.variable .empty .constant "f" none (some (.closure ⟨[], [.stmt (.defer
      [.decl (.variable .empty .variable "x" none none none)])]⟩)) none] = ["x"] := by
  decide

end SwiftSource

import SwiftSource.Keyword
import SwiftSource.Part

namespace SwiftSource

-- Nodes are source text before layout. They hold every comma and every parenthesis that is
-- printed, so printing one makes no decision.

-- `{ a, b in first; second }`
structure Closure (ι : Type) where
  parameters : List (Separated String)
  statements : List ι
deriving DecidableEq

inductive AccessorKind where
  | get
  | set
deriving DecidableEq

-- `get { ... }` or `set(value) { ... }`
structure Accessor (ι : Type) where
  kind : AccessorKind
  parameter : Option String
  body : List ι
deriving DecidableEq

mutual

-- Literals of numbers hold their text, a string literal holds its content.
inductive ExprNode where
  | integer (text : String)
  | float (text : String)
  | string (value : String)
  | bool (value : Bool)
  | nil
  | reference (name : String)
  | ternary (condition thenBranch elseBranch : ExprNode)
  | infixOp (left : ExprNode) (operator : String) (right : ExprNode)
  | prefixOp (operator : String) (operand : ExprNode)
  | member (base : ExprNode) (name : String)
  | call (callee : ExprNode) (arguments : List (Separated (Argument ExprNode)))
      (trailing : Option (Closure ItemNode))
  | closure (closure : Closure ItemNode)
  | array (elements : List (Separated ExprNode))
  | parenthesized (inner : ExprNode)

inductive StmtNode where
  | guard (condition : ExprNode) (body : List ItemNode)
  | branch (condition : ExprNode) (body : List ItemNode) (elseBody : Option (List ItemNode))
  | returns (value : Option ExprNode)
  | throws (value : ExprNode)
  | defer (body : List ItemNode)

inductive DeclNode where
  | variable (modifiers : Modifiers) (binding : Binding) (name : String) (type : Option String)
      (initializer : Option ExprNode) (accessors : Option (List (Accessor ItemNode)))
  | function (modifiers : Modifiers) (name : String) (parameters : List (Separated Parameter))
      (effects : Effects) (returnType : Option String) (body : List ItemNode)
  | initializer (modifiers : Modifiers) (parameters : List (Separated Parameter))
      (effects : Effects) (body : List ItemNode)
  | extension (type : String) (inheritance : Option (List (Separated String)))
      (members : List DeclNode)
  | struct (modifiers : Modifiers) (name : String)
      (inheritance : Option (List (Separated String))) (members : List DeclNode)

-- Whatever may stand on a line of its own.
inductive ItemNode where
  | decl (node : DeclNode)
  | stmt (node : StmtNode)
  | expr (node : ExprNode)

end

instance : Inhabited ExprNode := ⟨.nil⟩

end SwiftSource

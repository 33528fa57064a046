import SwiftSource.Double.Binary
import SwiftSource.Part

namespace SwiftSource

inductive Literal where
  | int (value : Int64)
  | double (value : Double)
  | string (value : String)
  | bool (value : Bool)
  | nil
deriving DecidableEq

-- An expression whose variables each carry a payload.
inductive Expr (α : Type) where
  | literal (value : Literal)
  | variable (name : String) (payload : α)
  | conditional (condition thenBranch elseBranch : Expr α)
  -- runs `body` with `element` naming each element of `collection` in turn
  | loop (element : String) (collection body : Expr α)
  | call (name : String) (arguments : List (Argument (Expr α)))
  | method (base : Expr α) (name : String) (arguments : List (Argument (Expr α)))
  | binary (left : Expr α) (operator : String) (right : Expr α)
  | property (base : Expr α) (name : String)
  -- names the value of `initializer` where it stands
  | inline (name : String) (type : Option String) (initializer : Expr α)
  | array (elements : List (Expr α))

-- A branch without an `else` differs from one whose `else` is empty.
inductive Stmt (α : Type) where
  | bind (binding : Binding) (name : String) (type : Option String) (initializer : Expr α)
  | guard (condition : Expr α) (elseBody : List (Stmt α))
  | branch (condition : Expr α) (thenBody : List (Stmt α)) (elseBody : Option (List (Stmt α)))
  | returns (value : Option (Expr α))
  | throws (error : Expr α)
  | defer (body : List (Stmt α))
  | expression (value : Expr α)

structure FunctionDecl (α : Type) where
  access : Access := .internal
  name : String
  parameters : List Parameter := []
  isAsync : Bool := false
  canThrow : Bool := false
  returnType : Option String := none
  body : List (Stmt α) := []

-- A stored property.
structure PropertyDecl (α : Type) where
  access : Access := .internal
  name : String
  type : Option String
  isStatic : Bool := false
  binding : Binding
  initializer : Option (Expr α) := none

structure Setter (α : Type) where
  parameter : String
  body : List (Stmt α)

structure ComputedDecl (α : Type) where
  name : String
  type : String
  isStatic : Bool := false
  getter : List (Stmt α)
  setter : Option (Setter α) := none

structure InitializerDecl (α : Type) where
  access : Access := .internal
  parameters : List Parameter := []
  canThrow : Bool := false
  body : List (Stmt α)

structure ExtensionDecl (δ : Type) where
  type : String
  conformances : List String := []
  members : List δ := []

structure StructDecl (δ : Type) where
  access : Access := .internal
  name : String
  conformances : List String := []
  members : List δ := []

inductive Decl (α : Type) where
  | function (decl : FunctionDecl α)
  | property (decl : PropertyDecl α)
  | computed (decl : ComputedDecl α)
  | extension (decl : ExtensionDecl (Decl α))
  | struct (decl : StructDecl (Decl α))
  | initializer (decl : InitializerDecl α)

-- The declared name, or the extended type. An initializer has no name.
def Decl.name? {α : Type} : Decl α → Option String
  | .function f => some f.name
  | .property p => some p.name
  | .computed c => some c.name
  | .extension e => some e.type
  | .struct s => some s.name
  | .initializer _ => none

end SwiftSource

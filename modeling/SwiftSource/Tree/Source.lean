import SwiftSource.Tree.Equality
import SwiftSource.Tree.Fingerprint
import SwiftSource.Tree.Fragment

namespace SwiftSource

-- Anything that can be rendered.
inductive Source (α : Type) where
  | literal (literal : Literal)
  | expr (expr : Expr α)
  | stmt (stmt : Stmt α)
  | stmts (stmts : List (Stmt α))
  | decl (decl : Decl α)
  | decls (decls : List (Decl α))

namespace Source

variable {α : Type}

def beq [BEq α] : Source α → Source α → Bool
  | .literal a, .literal b => a == b
  | .expr a, .expr b => a == b
  | .stmt a, .stmt b => a == b
  | .stmts a, .stmts b => a == b
  | .decl a, .decl b => a == b
  | .decls a, .decls b => a == b
  | _, _ => false

instance [BEq α] : BEq (Source α) := ⟨beq⟩

def words [Fingerprint α] : Source α → List Nat
  | .literal l => 0 :: Fingerprint.words l
  | .expr e => 1 :: Fingerprint.words e
  | .stmt s => 2 :: Fingerprint.words s
  | .stmts ss => 3 :: Fingerprint.words ss
  | .decl d => 4 :: Fingerprint.words d
  | .decls ds => 5 :: Fingerprint.words ds

instance [Fingerprint α] : Fingerprint (Source α) := ⟨words⟩

instance [Fingerprint α] : Hashable (Source α) := ⟨fun s => Fingerprint.digest s.words⟩

end Source

def Fragment.source {α : Type} : Fragment α → Source α
  | .expr e => .expr e
  | .stmt s => .stmt s
  | .decl d => .decl d

end SwiftSource

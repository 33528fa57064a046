import SwiftSource.Part
import SwiftSource.Proofs.Parse.Token
import SwiftSource.Proofs.Tree.Induction

namespace SwiftSource

variable {α : Type} (isName : String → Bool)

-- Trees whose names and operators can be told apart in text. What counts as a name is up to
-- the place where the tree stands. String literals are not restricted.

namespace Expr

mutual

-- The name of an inline declaration is never printed.
def wellFormed : Expr α → Bool
  | .literal _ => true
  | .variable name _ => isName name
  | .conditional condition thenBranch elseBranch =>
    condition.wellFormed && thenBranch.wellFormed && elseBranch.wellFormed
  | .loop element collection body => isName element && collection.wellFormed && body.wellFormed
  | .call name arguments => isName name && wellFormedArguments arguments
  | .method base name arguments => base.wellFormed && isName name && wellFormedArguments arguments
  | .binary left operator right => left.wellFormed && isOperator operator && right.wellFormed
  | .property base name => base.wellFormed && isName name
  | .inline _ _ initializer => initializer.wellFormed
  | .array elements => wellFormedElements elements

def wellFormedArguments : List (Argument (Expr α)) → Bool
  | [] => true
  | ⟨label, value⟩ :: rest => label.all isName && value.wellFormed && wellFormedArguments rest

def wellFormedElements : List (Expr α) → Bool
  | [] => true
  | value :: rest => value.wellFormed && wellFormedElements rest

end

variable {isName}

@[simp]
theorem wellFormedArguments_iff {arguments : List (Argument (Expr α))} :
    wellFormedArguments isName arguments = true ↔
      ∀ a ∈ arguments, (∀ l ∈ a.label, isName l = true) ∧ a.value.wellFormed isName = true := by
  induction arguments with
  | nil => simp [wellFormedArguments]
  | cons a rest ih =>
      obtain ⟨label, value⟩ := a
      cases label with
      | none => simp [wellFormedArguments, ih]
      | some label => simp [wellFormedArguments, ih]

@[simp]
theorem wellFormedElements_iff {elements : List (Expr α)} :
    wellFormedElements isName elements = true ↔
      ∀ e ∈ elements, e.wellFormed isName = true := by
  induction elements with
  | nil => simp [wellFormedElements]
  | cons e rest ih => simp [wellFormedElements, ih]

end Expr

namespace Stmt

mutual

-- Names in statements and declarations are no keywords.
def wellFormed : Stmt α → Bool
  | .bind _ name type initializer =>
    isIdentifier name && type.all isTypeText && initializer.wellFormed isIdentifier
  | .guard condition body => condition.wellFormed isIdentifier && wellFormedList body
  | .branch condition body elseBody =>
    condition.wellFormed isIdentifier && wellFormedList body && wellFormedOption elseBody
  | .returns value => value.all (Expr.wellFormed isIdentifier)
  | .throws value => value.wellFormed isIdentifier
  | .defer body => wellFormedList body
  | .expression value => value.wellFormed isIdentifier

def wellFormedList : List (Stmt α) → Bool
  | [] => true
  | s :: rest => s.wellFormed && wellFormedList rest

def wellFormedOption : Option (List (Stmt α)) → Bool
  | none => true
  | some body => wellFormedList body

end

@[simp]
theorem wellFormedList_iff {body : List (Stmt α)} :
    wellFormedList body = true ↔ ∀ s ∈ body, s.wellFormed = true := by
  induction body with
  | nil => simp [wellFormedList]
  | cons s rest ih => simp [wellFormedList, ih]

@[simp]
theorem wellFormedOption_iff {body : Option (List (Stmt α))} :
    wellFormedOption body = true ↔ ∀ b ∈ body, ∀ s ∈ b, s.wellFormed = true := by
  cases body with
  | none => simp [wellFormedOption]
  | some body => simp [wellFormedOption]

end Stmt

def Parameter.wellFormed (p : Parameter) : Bool :=
  p.label.all isIdentifier && isIdentifier p.name && isTypeText p.type &&
    p.defaultValue.all isTypeText

namespace Decl

mutual

def wellFormed : Decl α → Bool
  | .function d =>
    isIdentifier d.name && d.parameters.all Parameter.wellFormed && d.returnType.all isTypeText &&
      d.body.all Stmt.wellFormed
  | .property d =>
    isIdentifier d.name && d.type.all isTypeText &&
      d.initializer.all (Expr.wellFormed isIdentifier)
  | .computed d =>
    isIdentifier d.name && isTypeText d.type && d.getter.all Stmt.wellFormed &&
      d.setter.all fun setter => isIdentifier setter.parameter && setter.body.all Stmt.wellFormed
  | .extension ⟨type, conformances, members⟩ =>
    isTypeText type && conformances.all isTypeText && wellFormedList members
  | .struct ⟨_, name, conformances, members⟩ =>
    isIdentifier name && conformances.all isTypeText && wellFormedList members
  | .initializer d => d.parameters.all Parameter.wellFormed && d.body.all Stmt.wellFormed

def wellFormedList : List (Decl α) → Bool
  | [] => true
  | d :: rest => d.wellFormed && wellFormedList rest

end

@[simp]
theorem wellFormedList_iff {members : List (Decl α)} :
    wellFormedList members = true ↔ ∀ d ∈ members, d.wellFormed = true := by
  induction members with
  | nil => simp [wellFormedList]
  | cons d rest ih => simp [wellFormedList, ih]

end Decl

end SwiftSource

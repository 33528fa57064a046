import SwiftSource.Proofs.Tree.Induction

namespace SwiftSource

-- What is left of a tree once its text is written: no payloads, no inline declarations, and
-- doubles without a literal as the members that stand for them.

def Literal.norm : Literal → Expr Unit
  | .double x =>
    match x.kind, x.isNegative with
    | .nan, _ => .property (.variable "Double" ()) "nan"
    | .infinite, false => .property (.variable "Double" ()) "infinity"
    | _, _ => .literal (.double x)
  | value => .literal value

namespace Literal

variable {x : Double} {m : Double.Magnitude}

theorem norm_of_nan (h : x.kind = .nan) :
    (Literal.double x).norm = .property (.variable "Double" ()) "nan" := by
  simp only [Literal.norm, h]

theorem norm_of_infinity (h : x.kind = .infinite) (hsign : x.isNegative = false) :
    (Literal.double x).norm = .property (.variable "Double" ()) "infinity" := by
  simp only [Literal.norm, h, hsign]

theorem norm_of_negative_infinity (h : x.kind = .infinite) (hsign : x.isNegative = true) :
    (Literal.double x).norm = .literal (.double x) := by
  simp only [Literal.norm, h, hsign]

theorem norm_of_finite (h : x.kind = .finite m) :
    (Literal.double x).norm = .literal (.double x) := by
  simp only [Literal.norm, h]

end Literal

variable {α : Type}

namespace Expr

mutual

def norm : Expr α → Expr Unit
  | .literal value => value.norm
  | .variable name _ => .variable name ()
  | .conditional condition thenBranch elseBranch =>
    .conditional condition.norm thenBranch.norm elseBranch.norm
  | .loop element collection body => .loop element collection.norm body.norm
  | .call name arguments => .call name (normArguments arguments)
  | .method base name arguments => .method base.norm name (normArguments arguments)
  | .binary left operator right => .binary left.norm operator right.norm
  | .property base name => .property base.norm name
  | .inline _ _ initializer => initializer.norm
  | .array elements => .array (normElements elements)

def normArguments : List (Argument (Expr α)) → List (Argument (Expr Unit))
  | [] => []
  | ⟨label, value⟩ :: rest => ⟨label, value.norm⟩ :: normArguments rest

def normElements : List (Expr α) → List (Expr Unit)
  | [] => []
  | value :: rest => value.norm :: normElements rest

end

@[simp]
theorem normArguments_eq (arguments : List (Argument (Expr α))) :
    normArguments arguments = arguments.map fun a => ⟨a.label, a.value.norm⟩ := by
  induction arguments with
  | nil => rfl
  | cons a rest ih => rw [normArguments, ih, List.map_cons]

@[simp]
theorem normElements_eq (elements : List (Expr α)) :
    normElements elements = elements.map norm := by
  induction elements with
  | nil => rfl
  | cons e rest ih => rw [normElements, ih, List.map_cons]

end Expr

namespace Stmt

mutual

def norm : Stmt α → Stmt Unit
  | .bind binding name type initializer => .bind binding name type initializer.norm
  | .guard condition elseBody => .guard condition.norm (normList elseBody)
  | .branch condition thenBody elseBody =>
    .branch condition.norm (normList thenBody) (normOption elseBody)
  | .returns value => .returns (value.map Expr.norm)
  | .throws error => .throws error.norm
  | .defer body => .defer (normList body)
  | .expression value => .expression value.norm

def normList : List (Stmt α) → List (Stmt Unit)
  | [] => []
  | stmt :: rest => stmt.norm :: normList rest

def normOption : Option (List (Stmt α)) → Option (List (Stmt Unit))
  | none => none
  | some body => some (normList body)

end

@[simp]
theorem normList_eq (body : List (Stmt α)) : normList body = body.map norm := by
  induction body with
  | nil => rfl
  | cons s rest ih => rw [normList, ih, List.map_cons]

@[simp]
theorem normOption_eq (body : Option (List (Stmt α))) :
    normOption body = body.map (List.map norm) := by
  cases body with
  | none => rfl
  | some body => rw [normOption, normList_eq, Option.map_some]

end Stmt

def FunctionDecl.norm (d : FunctionDecl α) : FunctionDecl Unit :=
  ⟨d.access, d.name, d.parameters, d.isAsync, d.canThrow, d.returnType, d.body.map Stmt.norm⟩

def PropertyDecl.norm (d : PropertyDecl α) : PropertyDecl Unit :=
  ⟨d.access, d.name, d.type, d.isStatic, d.binding, d.initializer.map Expr.norm⟩

def Setter.norm (setter : Setter α) : Setter Unit :=
  ⟨setter.parameter, setter.body.map Stmt.norm⟩

def ComputedDecl.norm (d : ComputedDecl α) : ComputedDecl Unit :=
  ⟨d.name, d.type, d.isStatic, d.getter.map Stmt.norm, d.setter.map Setter.norm⟩

def InitializerDecl.norm (d : InitializerDecl α) : InitializerDecl Unit :=
  ⟨d.access, d.parameters, d.canThrow, d.body.map Stmt.norm⟩

namespace Decl

mutual

def norm : Decl α → Decl Unit
  | .function d => .function d.norm
  | .property d => .property d.norm
  | .computed d => .computed d.norm
  | .extension ⟨type, conformances, members⟩ => .extension ⟨type, conformances, normList members⟩
  | .struct ⟨access, name, conformances, members⟩ =>
    .struct ⟨access, name, conformances, normList members⟩
  | .initializer d => .initializer d.norm

def normList : List (Decl α) → List (Decl Unit)
  | [] => []
  | decl :: rest => decl.norm :: normList rest

end

@[simp]
theorem normList_eq (members : List (Decl α)) : normList members = members.map norm := by
  induction members with
  | nil => rfl
  | cons d rest ih => rw [normList, ih, List.map_cons]

end Decl

end SwiftSource

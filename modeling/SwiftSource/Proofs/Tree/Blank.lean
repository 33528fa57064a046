import SwiftSource.Proofs.Tree.Outline
import SwiftSource.Tree.Source

namespace SwiftSource

variable {α : Type}

-- What the string literals of a tree say, and the tree without it.

def Literal.string? : Literal → Option String
  | .string value => some value
  | _ => none

def Literal.blank : Literal → Literal
  | .string _ => .string ""
  | value => value

namespace Fragment

def string? : Fragment α → Option String
  | .expr (.literal value) => value.string?
  | _ => none

-- The contents of all string literals, in source order.
def strings (fragment : Fragment α) : List String :=
  fragment.outline.heads.filterMap string?

end Fragment

namespace Expr

def strings (e : Expr α) : List String := (Fragment.expr e).strings

mutual

def blank : Expr α → Expr α
  | .literal value => .literal value.blank
  | .variable name payload => .variable name payload
  | .conditional condition thenBranch elseBranch =>
    .conditional condition.blank thenBranch.blank elseBranch.blank
  | .loop element collection body => .loop element collection.blank body.blank
  | .call name arguments => .call name (blankArguments arguments)
  | .method base name arguments => .method base.blank name (blankArguments arguments)
  | .binary left operator right => .binary left.blank operator right.blank
  | .property base name => .property base.blank name
  | .inline name type initializer => .inline name type initializer.blank
  | .array elements => .array (blankElements elements)

def blankArguments : List (Argument (Expr α)) → List (Argument (Expr α))
  | [] => []
  | ⟨label, value⟩ :: rest => ⟨label, value.blank⟩ :: blankArguments rest

def blankElements : List (Expr α) → List (Expr α)
  | [] => []
  | value :: rest => value.blank :: blankElements rest

end

@[simp]
theorem blankArguments_eq (arguments : List (Argument (Expr α))) :
    blankArguments arguments = arguments.map fun a => ⟨a.label, a.value.blank⟩ := by
  induction arguments with
  | nil => rfl
  | cons a rest ih => rw [blankArguments, ih, List.map_cons]

@[simp]
theorem blankElements_eq (elements : List (Expr α)) :
    blankElements elements = elements.map blank := by
  induction elements with
  | nil => rfl
  | cons e rest ih => rw [blankElements, ih, List.map_cons]

end Expr

namespace Stmt

def strings (s : Stmt α) : List String := (Fragment.stmt s).strings

mutual

def blank : Stmt α → Stmt α
  | .bind binding name type initializer => .bind binding name type initializer.blank
  | .guard condition elseBody => .guard condition.blank (blankList elseBody)
  | .branch condition thenBody elseBody =>
    .branch condition.blank (blankList thenBody) (blankOption elseBody)
  | .returns value => .returns (value.map Expr.blank)
  | .throws error => .throws error.blank
  | .defer body => .defer (blankList body)
  | .expression value => .expression value.blank

def blankList : List (Stmt α) → List (Stmt α)
  | [] => []
  | stmt :: rest => stmt.blank :: blankList rest

def blankOption : Option (List (Stmt α)) → Option (List (Stmt α))
  | none => none
  | some body => some (blankList body)

end

@[simp]
theorem blankList_eq (body : List (Stmt α)) : blankList body = body.map blank := by
  induction body with
  | nil => rfl
  | cons s rest ih => rw [blankList, ih, List.map_cons]

@[simp]
theorem blankOption_eq (body : Option (List (Stmt α))) :
    blankOption body = body.map (List.map blank) := by
  cases body with
  | none => rfl
  | some body => rw [blankOption, blankList_eq, Option.map_some]

end Stmt

def Setter.blank (setter : Setter α) : Setter α :=
  { setter with body := setter.body.map Stmt.blank }

namespace Decl

def strings (d : Decl α) : List String := (Fragment.decl d).strings

mutual

def blank : Decl α → Decl α
  | .function d => .function { d with body := d.body.map Stmt.blank }
  | .property d => .property { d with initializer := d.initializer.map Expr.blank }
  | .computed d =>
    .computed { d with getter := d.getter.map Stmt.blank, setter := d.setter.map Setter.blank }
  | .extension ⟨type, conformances, members⟩ => .extension ⟨type, conformances, blankList members⟩
  | .struct ⟨access, name, conformances, members⟩ =>
    .struct ⟨access, name, conformances, blankList members⟩
  | .initializer d => .initializer { d with body := d.body.map Stmt.blank }

def blankList : List (Decl α) → List (Decl α)
  | [] => []
  | decl :: rest => decl.blank :: blankList rest

end

@[simp]
theorem blankList_eq (members : List (Decl α)) : blankList members = members.map blank := by
  induction members with
  | nil => rfl
  | cons d rest ih => rw [blankList, ih, List.map_cons]

end Decl

namespace Source

def blank : Source α → Source α
  | .literal l => .literal l.blank
  | .expr e => .expr e.blank
  | .stmt s => .stmt s.blank
  | .stmts ss => .stmts (ss.map Stmt.blank)
  | .decl d => .decl d.blank
  | .decls ds => .decls (ds.map Decl.blank)

def strings : Source α → List String
  | .literal l => l.string?.toList
  | .expr e => e.strings
  | .stmt s => s.strings
  | .stmts ss => ss.flatMap Stmt.strings
  | .decl d => d.strings
  | .decls ds => ds.flatMap Decl.strings

end Source

end SwiftSource

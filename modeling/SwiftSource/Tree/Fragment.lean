import SwiftSource.Tree.Basic
import SwiftSource.Tree.Outline

namespace SwiftSource

variable {α : Type}

-- Any part of a program that can be visited.
inductive Fragment (α : Type) where
  | expr (expr : Expr α)
  | stmt (stmt : Stmt α)
  | decl (decl : Decl α)

namespace Expr

mutual

-- The outlines of the expressions directly inside, in source order.
def parts : Expr α → List (Outline (Fragment α))
  | .literal _ => []
  | .variable _ _ => []
  | .conditional condition thenBranch elseBranch =>
    [.entry (.expr condition) condition.parts, .entry (.expr thenBranch) thenBranch.parts,
      .entry (.expr elseBranch) elseBranch.parts]
  | .loop _ collection body =>
    [.entry (.expr collection) collection.parts, .entry (.expr body) body.parts]
  | .call _ arguments => argumentParts arguments
  | .method base _ arguments => .entry (.expr base) base.parts :: argumentParts arguments
  | .binary left _ right => [.entry (.expr left) left.parts, .entry (.expr right) right.parts]
  | .property base _ => [.entry (.expr base) base.parts]
  | .inline _ _ initializer => [.entry (.expr initializer) initializer.parts]
  | .array elements => elementParts elements

def argumentParts : List (Argument (Expr α)) → List (Outline (Fragment α))
  | [] => []
  | ⟨_, value⟩ :: rest => .entry (.expr value) value.parts :: argumentParts rest

def elementParts : List (Expr α) → List (Outline (Fragment α))
  | [] => []
  | value :: rest => .entry (.expr value) value.parts :: elementParts rest

end

def outline (e : Expr α) : Outline (Fragment α) :=
  .entry (.expr e) e.parts

end Expr

namespace Stmt

mutual

def parts : Stmt α → List (Outline (Fragment α))
  | .bind _ _ _ initializer => [initializer.outline]
  | .guard condition elseBody => condition.outline :: bodyParts elseBody
  | .branch condition thenBody elseBody =>
    condition.outline :: bodyParts thenBody ++ elseParts elseBody
  | .returns value => value.toList.map Expr.outline
  | .throws error => [error.outline]
  | .defer body => bodyParts body
  | .expression value => [value.outline]

def bodyParts : List (Stmt α) → List (Outline (Fragment α))
  | [] => []
  | stmt :: rest => .entry (.stmt stmt) stmt.parts :: bodyParts rest

def elseParts : Option (List (Stmt α)) → List (Outline (Fragment α))
  | none => []
  | some body => bodyParts body

end

def outline (s : Stmt α) : Outline (Fragment α) :=
  .entry (.stmt s) s.parts

end Stmt

namespace Decl

def setterParts : Option (Setter α) → List (Outline (Fragment α))
  | none => []
  | some setter => Stmt.bodyParts setter.body

mutual

def parts : Decl α → List (Outline (Fragment α))
  | .function d => Stmt.bodyParts d.body
  | .property d => d.initializer.toList.map Expr.outline
  | .computed d => Stmt.bodyParts d.getter ++ setterParts d.setter
  | .extension ⟨_, _, members⟩ => memberParts members
  | .struct ⟨_, _, _, members⟩ => memberParts members
  | .initializer d => Stmt.bodyParts d.body

def memberParts : List (Decl α) → List (Outline (Fragment α))
  | [] => []
  | member :: rest => .entry (.decl member) member.parts :: memberParts rest

end

def outline (d : Decl α) : Outline (Fragment α) :=
  .entry (.decl d) d.parts

end Decl

namespace Fragment

def outline : Fragment α → Outline (Fragment α)
  | .expr e => e.outline
  | .stmt s => s.outline
  | .decl d => d.outline

def kind : Fragment α → String
  | .expr (.literal _) => "expr.literal"
  | .expr (.variable ..) => "expr.variable"
  | .expr (.conditional ..) => "expr.conditional"
  | .expr (.loop ..) => "expr.loop"
  | .expr (.call ..) => "expr.call"
  | .expr (.method ..) => "expr.method"
  | .expr (.binary ..) => "expr.binary"
  | .expr (.property ..) => "expr.property"
  | .expr (.inline ..) => "expr.inline"
  | .expr (.array _) => "expr.array"
  | .stmt (.bind .constant ..) => "stmt.let"
  | .stmt (.bind .variable ..) => "stmt.var"
  | .stmt (.guard ..) => "stmt.guard"
  | .stmt (.branch ..) => "stmt.if"
  | .stmt (.returns _) => "stmt.return"
  | .stmt (.throws _) => "stmt.throw"
  | .stmt (.defer _) => "stmt.defer"
  | .stmt (.expression _) => "stmt.expression"
  | .decl (.function _) => "decl.function"
  | .decl (.property _) => "decl.property"
  | .decl (.computed _) => "decl.computed"
  | .decl (.extension _) => "decl.extension"
  | .decl (.struct _) => "decl.struct"
  | .decl (.initializer _) => "decl.initializer"

-- What a fragment is about, empty where nothing names it.
def label : Fragment α → String
  | .expr (.variable name _) => name
  | .expr (.loop element _ _) => element
  | .expr (.call name _) => name
  | .expr (.method _ name _) => name
  | .expr (.binary _ operator _) => operator
  | .expr (.property _ name) => name
  | .expr (.inline name _ _) => name
  | .expr _ => ""
  | .stmt (.bind _ name _ _) => name
  | .stmt _ => ""
  | .decl d => d.name?.getD ""

def name? : Fragment α → Option String
  | .decl d => d.name?
  | _ => none

-- The depth, kind and label of every fragment, cut below the kinds in `cut`.
def listing (cut : List String) (fragment : Fragment α) : List (Nat × String × String) :=
  (fragment.outline.visits (fun f => cut.contains f.kind) 0).map fun v =>
    (v.1, v.2.kind, v.2.label)

-- The same without the fragment itself, even where `cut` has its kind.
def partsListing (cut : List String) (fragment : Fragment α) : List (Nat × String × String) :=
  (Outline.visitsList (fun f => cut.contains f.kind) 0 fragment.outline.parts).map fun v =>
    (v.1, v.2.kind, v.2.label)

def payload? : Fragment α → Option α
  | .expr (.variable _ payload) => some payload
  | _ => none

-- The payloads of all variables, in source order.
def payloads (fragment : Fragment α) : List α :=
  fragment.outline.heads.filterMap payload?

end Fragment

def Expr.payloads (e : Expr α) : List α := (Fragment.expr e).payloads

def Stmt.payloads (s : Stmt α) : List α := (Fragment.stmt s).payloads

def Decl.payloads (d : Decl α) : List α := (Fragment.decl d).payloads

end SwiftSource

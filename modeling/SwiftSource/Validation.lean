import SwiftSource.Render.Event
import SwiftSource.Tree.Fragment

namespace SwiftSource

-- What can be wrong with a declaration.
inductive Problem where
  | untypedProperty (name : String)
deriving DecidableEq

namespace Problem

def message : Problem → String
  | .untypedProperty name =>
    "property `" ++ name ++ "` needs a type annotation or an initializer"

def event : Problem → Event
  | .untypedProperty name => .untyped name

end Problem

variable {α : Type}

-- A stored property has to show its type in one of two ways.
def PropertyDecl.isUntyped (d : PropertyDecl α) : Bool :=
  d.type.isNone && d.initializer.isNone

def Fragment.problem? : Fragment α → Option Problem
  | .decl (.property d) => if d.isUntyped then some (.untypedProperty d.name) else none
  | _ => none

namespace Decl

-- All problems of a declaration and its members, in source order.
def problems (d : Decl α) : List Problem :=
  d.outline.heads.filterMap Fragment.problem?

def problemsList (ds : List (Decl α)) : List Problem :=
  ds.flatMap problems

-- Only the first problem counts here.
def validate (d : Decl α) : Except Problem Unit :=
  match d.problems with
  | [] => .ok ()
  | problem :: _ => .error problem

def validateList (ds : List (Decl α)) : Except (List Problem) Unit :=
  match problemsList ds with
  | [] => .ok ()
  | problems => .error problems

end Decl

end SwiftSource

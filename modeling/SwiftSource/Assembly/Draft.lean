import SwiftSource.Tree.Basic

namespace SwiftSource

-- A declaration or a parameter that is being put together.
inductive Draft (α : Type) where
  | decl (decl : Decl α)
  | parameter (parameter : Parameter)

-- One addition to a draft.
inductive Draft.Step (α : Type) where
  | access (level : Access)
  | parameter (parameter : Parameter)
  | async
  | throws
  | returnType (type : String)
  | body (body : List (Stmt α))
  | static
  | initializer (value : Expr α)
  -- drops the type
  | inferred
  | setter (parameter : String) (body : List (Stmt α))
  | conform (name : String)
  | member (decl : Decl α)
  | label (label : String)
  | inout
  | default (value : String)

namespace Draft

variable {α : Type}

def function (name : String) : Draft α :=
  .decl (.function { name })

def property (binding : Binding) (name type : String) : Draft α :=
  .decl (.property { name, type := some type, binding })

def computed (name type : String) (getter : List (Stmt α)) : Draft α :=
  .decl (.computed { name, type, getter })

def struct (name : String) : Draft α :=
  .decl (.struct { name })

def extension (type : String) : Draft α :=
  .decl (.extension { type })

def initializer (body : List (Stmt α)) : Draft α :=
  .decl (.initializer { body })

def ofParameter (name type : String) : Draft α :=
  .parameter { name, type }

end Draft

variable {α : Type}

def FunctionDecl.add? (d : FunctionDecl α) : Draft.Step α → Option (FunctionDecl α)
  | .access level => some { d with access := level }
  | .parameter p => some { d with parameters := d.parameters ++ [p] }
  | .async => some { d with isAsync := true }
  | .throws => some { d with canThrow := true }
  | .returnType type => some { d with returnType := some type }
  | .body body => some { d with body }
  | _ => none

def PropertyDecl.add? (d : PropertyDecl α) : Draft.Step α → Option (PropertyDecl α)
  | .access level => some { d with access := level }
  | .static => some { d with isStatic := true }
  | .initializer value => some { d with initializer := some value }
  | .inferred => some { d with type := none }
  | _ => none

def ComputedDecl.add? (d : ComputedDecl α) : Draft.Step α → Option (ComputedDecl α)
  | .static => some { d with isStatic := true }
  | .setter parameter body => some { d with setter := some ⟨parameter, body⟩ }
  | _ => none

def StructDecl.add? (d : StructDecl (Decl α)) : Draft.Step α → Option (StructDecl (Decl α))
  | .access level => some { d with access := level }
  | .conform name => some { d with conformances := d.conformances ++ [name] }
  | .member decl => some { d with members := d.members ++ [decl] }
  | _ => none

def ExtensionDecl.add? (d : ExtensionDecl (Decl α)) :
    Draft.Step α → Option (ExtensionDecl (Decl α))
  | .conform name => some { d with conformances := d.conformances ++ [name] }
  | .member decl => some { d with members := d.members ++ [decl] }
  | _ => none

def InitializerDecl.add? (d : InitializerDecl α) : Draft.Step α → Option (InitializerDecl α)
  | .access level => some { d with access := level }
  | .parameter p => some { d with parameters := d.parameters ++ [p] }
  | .throws => some { d with canThrow := true }
  | _ => none

def Parameter.add? (p : Parameter) : Draft.Step α → Option Parameter
  | .label label => some { p with label := some label }
  | .inout => some { p with isInout := true }
  | .default value => some { p with defaultValue := some value }
  | _ => none

namespace Draft

-- Nothing is added to a draft that has no place for it.
def add? (draft : Draft α) (step : Step α) : Option (Draft α) :=
  match draft with
  | .decl (.function d) => (d.add? step).map (.decl ∘ .function)
  | .decl (.property d) => (d.add? step).map (.decl ∘ .property)
  | .decl (.computed d) => (d.add? step).map (.decl ∘ .computed)
  | .decl (.struct d) => (d.add? step).map (.decl ∘ .struct)
  | .decl (.extension d) => (d.add? step).map (.decl ∘ .extension)
  | .decl (.initializer d) => (d.add? step).map (.decl ∘ .initializer)
  | .parameter p => (p.add? step).map .parameter

def add (draft : Draft α) (step : Step α) : Draft α :=
  (draft.add? step).getD draft

def build (draft : Draft α) (steps : List (Step α)) : Draft α :=
  steps.foldl add draft

-- A parameter is shown in a function that has no other.
def sample : Draft α → Decl α
  | .decl d => d
  | .parameter p => .function { name := "f", parameters := [p] }

end Draft

end SwiftSource

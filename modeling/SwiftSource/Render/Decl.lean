import SwiftSource.Render.Stmt

namespace SwiftSource

-- There is no clause without a conformance.
def inheritanceClause? (conformances : List String) : Option (List (Separated String)) :=
  if conformances.isEmpty then none else some (separate conformances)

namespace Decl

variable {α : Type}

def renderFunction (d : FunctionDecl α) : Logged DeclNode := do
  let body ← Stmt.renderList d.body
  return .function d.access.modifiers d.name (separate d.parameters)
    (Effects.of d.isAsync d.canThrow) d.returnType body

def renderProperty (d : PropertyDecl α) : Logged DeclNode := do
  let initializer ← Expr.renderOption d.initializer
  return .variable (d.access.modifiers.union (Modifiers.ofStatic d.isStatic)) d.binding d.name
    d.type initializer none

def renderSetter : Option (Setter α) → Logged (List (Accessor ItemNode))
  | none => pure []
  | some setter => do
    let body ← Stmt.renderList setter.body
    return [⟨.set, some setter.parameter, body⟩]

-- A computed property is a variable with accessors.
def renderComputed (d : ComputedDecl α) : Logged DeclNode := do
  let getter ← Stmt.renderList d.getter
  let setter ← renderSetter d.setter
  return .variable (Modifiers.ofStatic d.isStatic) .variable d.name (some d.type) none
    (some (⟨.get, none, getter⟩ :: setter))

def renderInitializer (d : InitializerDecl α) : Logged DeclNode := do
  let body ← Stmt.renderList d.body
  return .initializer d.access.modifiers (separate d.parameters) (Effects.of false d.canThrow) body

mutual

-- A declaration below the event that announces it.
def renderBody : Decl α → Logged DeclNode
  | .function d => renderFunction d
  | .property d => renderProperty d
  | .computed d => renderComputed d
  | .extension ⟨type, conformances, members⟩ => do
    let members ← renderList members
    return .extension type (inheritanceClause? conformances) members
  | .struct ⟨access, name, conformances, members⟩ => do
    let members ← renderList members
    return .struct access.modifiers name (inheritanceClause? conformances) members
  | .initializer d => renderInitializer d

def renderList : List (Decl α) → Logged (List DeclNode)
  | [] => pure []
  | decl :: rest => do
    Logged.log (.declaration decl.name?)
    let decl ← decl.renderBody
    let rest ← renderList rest
    return decl :: rest

end

def render (d : Decl α) : Logged DeclNode := do
  Logged.log (.declaration d.name?)
  d.renderBody

def node (d : Decl α) : DeclNode := d.render.value

end Decl

end SwiftSource

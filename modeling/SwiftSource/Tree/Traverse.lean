import SwiftSource.Tree.Fragment

namespace SwiftSource

-- Relabelling with effects: `f` runs once for each payload, from left to right.

variable {α β : Type} {m : Type → Type} [Monad m]

namespace Expr

mutual

def traverse (f : α → m β) : Expr α → m (Expr β)
  | .literal value => pure (.literal value)
  | .variable name payload => do
    return .variable name (← f payload)
  | .conditional condition thenBranch elseBranch => do
    let condition ← condition.traverse f
    let thenBranch ← thenBranch.traverse f
    let elseBranch ← elseBranch.traverse f
    return .conditional condition thenBranch elseBranch
  | .loop element collection body => do
    let collection ← collection.traverse f
    let body ← body.traverse f
    return .loop element collection body
  | .call name arguments => do
    return .call name (← traverseArguments f arguments)
  | .method base name arguments => do
    let base ← base.traverse f
    let arguments ← traverseArguments f arguments
    return .method base name arguments
  | .binary left operator right => do
    let left ← left.traverse f
    let right ← right.traverse f
    return .binary left operator right
  | .property base name => do
    return .property (← base.traverse f) name
  | .inline name type initializer => do
    return .inline name type (← initializer.traverse f)
  | .array elements => do
    return .array (← traverseElements f elements)

def traverseArguments (f : α → m β) : List (Argument (Expr α)) → m (List (Argument (Expr β)))
  | [] => pure []
  | ⟨label, value⟩ :: rest => do
    let value ← value.traverse f
    let rest ← traverseArguments f rest
    return ⟨label, value⟩ :: rest

def traverseElements (f : α → m β) : List (Expr α) → m (List (Expr β))
  | [] => pure []
  | value :: rest => do
    let value ← value.traverse f
    let rest ← traverseElements f rest
    return value :: rest

end

def traverseOption (f : α → m β) : Option (Expr α) → m (Option (Expr β))
  | none => pure none
  | some value => do
    return some (← value.traverse f)

end Expr

namespace Stmt

mutual

def traverse (f : α → m β) : Stmt α → m (Stmt β)
  | .bind binding name type initializer => do
    return .bind binding name type (← initializer.traverse f)
  | .guard condition elseBody => do
    let condition ← condition.traverse f
    let elseBody ← traverseList f elseBody
    return .guard condition elseBody
  | .branch condition thenBody elseBody => do
    let condition ← condition.traverse f
    let thenBody ← traverseList f thenBody
    let elseBody ← traverseOption f elseBody
    return .branch condition thenBody elseBody
  | .returns value => do
    return .returns (← Expr.traverseOption f value)
  | .throws error => do
    return .throws (← error.traverse f)
  | .defer body => do
    return .defer (← traverseList f body)
  | .expression value => do
    return .expression (← value.traverse f)

def traverseList (f : α → m β) : List (Stmt α) → m (List (Stmt β))
  | [] => pure []
  | stmt :: rest => do
    let stmt ← stmt.traverse f
    let rest ← traverseList f rest
    return stmt :: rest

def traverseOption (f : α → m β) : Option (List (Stmt α)) → m (Option (List (Stmt β)))
  | none => pure none
  | some body => do
    return some (← traverseList f body)

end

end Stmt

def Setter.traverseOption (f : α → m β) : Option (Setter α) → m (Option (Setter β))
  | none => pure none
  | some ⟨parameter, body⟩ => do
    return some ⟨parameter, ← Stmt.traverseList f body⟩

namespace Decl

mutual

def traverse (f : α → m β) : Decl α → m (Decl β)
  | .function d => do
    return .function { d with body := ← Stmt.traverseList f d.body }
  | .property d => do
    return .property { d with initializer := ← Expr.traverseOption f d.initializer }
  | .computed d => do
    let getter ← Stmt.traverseList f d.getter
    let setter ← Setter.traverseOption f d.setter
    return .computed { d with getter, setter }
  | .extension ⟨type, conformances, members⟩ => do
    return .extension ⟨type, conformances, ← traverseList f members⟩
  | .struct ⟨access, name, conformances, members⟩ => do
    return .struct ⟨access, name, conformances, ← traverseList f members⟩
  | .initializer d => do
    return .initializer { d with body := ← Stmt.traverseList f d.body }

def traverseList (f : α → m β) : List (Decl α) → m (List (Decl β))
  | [] => pure []
  | decl :: rest => do
    let decl ← decl.traverse f
    let rest ← traverseList f rest
    return decl :: rest

end

end Decl

def Fragment.traverse (f : α → m β) : Fragment α → m (Fragment β)
  | .expr e => do
    return .expr (← e.traverse f)
  | .stmt s => do
    return .stmt (← s.traverse f)
  | .decl d => do
    return .decl (← d.traverse f)

end SwiftSource

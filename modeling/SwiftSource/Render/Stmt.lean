import SwiftSource.Render.Expr

namespace SwiftSource

namespace Stmt

variable {α : Type}

mutual

def render : Stmt α → Logged ItemNode
  | .bind binding name type initializer => do
    let initializer ← initializer.render
    return .decl (.variable .empty binding name type (some initializer) none)
  | .guard condition elseBody => do
    let condition ← condition.render
    let elseBody ← renderList elseBody
    return .stmt (.guard condition.asCondition elseBody)
  | .branch condition thenBody elseBody => do
    let condition ← condition.render
    let thenBody ← renderList thenBody
    let elseBody ← renderOption elseBody
    return .stmt (.branch condition.asCondition thenBody elseBody)
  | .returns value => do
    let value ← Expr.renderOption value
    return .stmt (.returns value)
  | .throws error => do
    let error ← error.render
    return .stmt (.throws error)
  | .defer body => do
    let body ← renderList body
    return .stmt (.defer body)
  | .expression value => do
    let value ← value.render
    return .expr value

def renderList : List (Stmt α) → Logged (List ItemNode)
  | [] => pure []
  | stmt :: rest => do
    let item ← stmt.render
    let rest ← renderList rest
    return item :: rest

def renderOption : Option (List (Stmt α)) → Logged (Option (List ItemNode))
  | none => pure none
  | some body => do
    let body ← renderList body
    return some body

end

def node (s : Stmt α) : ItemNode := s.render.value

end Stmt

end SwiftSource

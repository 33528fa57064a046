import SwiftSource.Node.Passage
import SwiftSource.Render.Decl
import SwiftSource.Tree.Source

namespace SwiftSource

variable {α : Type}

namespace Source

def render : Source α → Logged Passage
  | .literal l => pure (.expr l.node)
  | .expr e => do
    let node ← e.render
    return .expr node
  | .stmt s => do
    let node ← s.render
    return .item node
  | .stmts ss => do
    let nodes ← Stmt.renderList ss
    return .items nodes
  | .decl d => do
    let node ← d.render
    return .decl node
  | .decls ds => do
    let nodes ← Decl.renderList ds
    return .items (nodes.map .decl)

def passage (source : Source α) : Passage := source.render.value

def text (indentation : Indentation) (source : Source α) : String :=
  source.passage.text indentation

end Source

def Literal.text (indentation : Indentation) (l : Literal) : String :=
  (Source.literal l : Source Unit).text indentation

def Expr.text (indentation : Indentation) (e : Expr α) : String :=
  (Source.expr e).text indentation

def Stmt.text (indentation : Indentation) (s : Stmt α) : String :=
  (Source.stmt s).text indentation

-- Statements one per line.
def Stmt.textList (indentation : Indentation) (ss : List (Stmt α)) : String :=
  (Source.stmts ss).text indentation

def Decl.text (indentation : Indentation) (d : Decl α) : String :=
  (Source.decl d).text indentation

-- Declarations one below the other.
def Decl.textList (indentation : Indentation) (ds : List (Decl α)) : String :=
  (Source.decls ds).text indentation

end SwiftSource

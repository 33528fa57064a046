import SwiftSource.Layout.Printer
import SwiftSource.Node.Equality
import SwiftSource.Node.Print

namespace SwiftSource

-- Anything that can be printed by itself.
inductive Passage where
  | expr (node : ExprNode)
  | argument (node : Separated (Argument ExprNode))
  | stmt (node : StmtNode)
  | item (node : ItemNode)
  | items (nodes : List ItemNode)
  | block (nodes : List ItemNode)
  | parameter (node : Separated Parameter)
  | accessor (node : Accessor ItemNode)
  | accessors (nodes : List (Accessor ItemNode))
  | inheritance (types : List (Separated String))
  | decl (node : DeclNode)
  | members (nodes : List DeclNode)
deriving DecidableEq

namespace Passage

def commands : Passage → List Command
  | .expr node => Print.expr node
  | .argument node => Print.argument node
  | .stmt node => Print.stmt node
  | .item node => Print.item node
  | .items nodes => Print.itemLines nodes
  | .block nodes => [.block (Print.items nodes)]
  | .parameter node => Print.parameter node
  | .accessor node => Print.accessor node
  | .accessors nodes => [.block (Print.accessors nodes)]
  | .inheritance types => Print.inheritance types
  | .decl node => Print.decl node
  | .members nodes => [.block (Print.members nodes)]

def text (indentation : Indentation) (passage : Passage) : String :=
  Command.text indentation passage.commands

end Passage

end SwiftSource

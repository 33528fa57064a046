import SwiftSource.Assembly.Draft
import SwiftSource.Assembly.Stack
import SwiftSource.Demo.Options
import SwiftSource.Demo.Run
import SwiftSource.Demo.Sample
import SwiftSource.Double.Binary
import SwiftSource.Double.Numeral
import SwiftSource.Double.Shortest
import SwiftSource.Keyword
import SwiftSource.Layout.Printer
import SwiftSource.Main
import SwiftSource.Mark
import SwiftSource.Node.Basic
import SwiftSource.Node.Equality
import SwiftSource.Node.Grouping
import SwiftSource.Node.Passage
import SwiftSource.Node.Print
import SwiftSource.Part
import SwiftSource.Relabel
import SwiftSource.Render.Decl
import SwiftSource.Render.Event
import SwiftSource.Render.Expr
import SwiftSource.Render.Logged
import SwiftSource.Render.Source
import SwiftSource.Render.Stmt
import SwiftSource.Text.Quoted
import SwiftSource.Text.Visible
import SwiftSource.Tree.Basic
import SwiftSource.Tree.Equality
import SwiftSource.Tree.Fingerprint
import SwiftSource.Tree.Fragment
import SwiftSource.Tree.Map
import SwiftSource.Tree.Outline
import SwiftSource.Tree.Source
import SwiftSource.Tree.Traverse
import SwiftSource.Validation
import SwiftSource.Proofs.Double.Rounding
import SwiftSource.Proofs.Double.Shortest
import SwiftSource.Proofs.Double.Reading
import SwiftSource.Proofs.Double.Numeral
import SwiftSource.Proofs.Double.Nearest
import SwiftSource.Proofs.Double.Significant
import SwiftSource.Proofs.Tree.Induction
import SwiftSource.Proofs.Tree.Outline
import SwiftSource.Proofs.Tree.Accumulate
import SwiftSource.Proofs.Tree.Payloads
import SwiftSource.Proofs.Tree.MapAccum
import SwiftSource.Proofs.Tree.Shape
import SwiftSource.Proofs.Tree.Refill
import SwiftSource.Proofs.Tree.Relabelling
import SwiftSource.Proofs.Tree.Norm
import SwiftSource.Proofs.Tree.Position
import SwiftSource.Proofs.Tree.Pruning
import SwiftSource.Proofs.Node.Declared
import SwiftSource.Proofs.Render.Node
import SwiftSource.Proofs.Render.Reading
import SwiftSource.Proofs.Render.Forgetting
import SwiftSource.Proofs.Render.Canonical
import SwiftSource.Proofs.Render.Image
import SwiftSource.Proofs.Render.Oblivious
import SwiftSource.Proofs.Render.Events
import SwiftSource.Proofs.Layout.Flat
import SwiftSource.Proofs.Parse.Expr
import SwiftSource.Proofs.Parse.Reads
import SwiftSource.Proofs.Parse.Decoding
import SwiftSource.Proofs.Parse.Clause
import SwiftSource.Proofs.Parse.Item
import SwiftSource.Proofs.Parse.ItemReads
import SwiftSource.Proofs.Parse.DeclReads
import SwiftSource.Proofs.Parse.Faithful
import SwiftSource.Proofs.Parse.Unambiguous
import SwiftSource.Proofs.Validation
import SwiftSource.Proofs.Render.Grouping
import SwiftSource.Proofs.Text.Token
import SwiftSource.Proofs.Text.Expr
import SwiftSource.Proofs.Double.Fewest
import SwiftSource.Proofs.Layout.Lines
import SwiftSource.Proofs.Text.Stmt
import SwiftSource.Proofs.Text.Decl
import SwiftSource.Proofs.Text.Source
import SwiftSource.Proofs.Text.Literals
import SwiftSource.Proofs.Text.Escapes
import SwiftSource.Proofs.Nesting.Program
import SwiftSource.Proofs.Nesting.Node
import SwiftSource.Proofs.Nesting.Condition
import SwiftSource.Proofs.Layout.Lazy
import SwiftSource.Proofs.Tree.Filling
import SwiftSource.Proofs.Assembly.Fields
import SwiftSource.Proofs.Assembly.Order
import SwiftSource.Proofs.Tree.Equality
import SwiftSource.Proofs.Tree.Fingerprint

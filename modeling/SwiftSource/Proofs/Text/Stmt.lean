import SwiftSource.Proofs.Layout.Lines
import SwiftSource.Proofs.Text.Expr

namespace SwiftSource

open Command (Spells Prints PrintsBelow spells_nil spells_write printsBelow_nil)

variable {α : Type}

-- The lines of a statement, read off the tree.

-- A part that is written only if it is there, behind its mark.
def Token.marked (mark : String) : Option String → List Token
  | none => []
  | some text => [.word mark, .word text]

def Expr.conditionTokens (e : Expr α) : List Token :=
  Token.groupIf e.showsBrace e.tokens

namespace Stmt

mutual

def lines : Stmt α → List Line
  | .bind binding name type initializer =>
    [⟨0, [.word binding.keyword, .word " ", .word name] ++ Token.marked ": " type ++
      [.word " = "] ++ initializer.tokens⟩]
  | .guard condition elseBody =>
    Line.block ([.word "guard "] ++ condition.conditionTokens ++ [.word " else"])
      (linesList elseBody)
  | .branch condition thenBody elseBody =>
    ⟨0, [.word "if "] ++ condition.conditionTokens ++ [.word (" " ++ openBrace)]⟩ ::
      ((linesList thenBody).map Line.deeper ++ elseLines elseBody)
  | .returns none => [⟨0, [.word "return"]⟩]
  | .returns (some value) => [⟨0, [.word "return "] ++ value.tokens⟩]
  | .throws error => [⟨0, [.word "throw "] ++ error.tokens⟩]
  | .defer body => Line.block [.word "defer"] (linesList body)
  | .expression value => [⟨0, value.tokens⟩]

def linesList : List (Stmt α) → List Line
  | [] => []
  | stmt :: rest => stmt.lines ++ linesList rest

-- What follows the first body of a branch. A second one begins on the line that ends the first.
def elseLines : Option (List (Stmt α)) → List Line
  | none => [⟨0, [.word closeBrace]⟩]
  | some body => Line.block [.word (closeBrace ++ " else")] (linesList body)

end

@[simp]
theorem linesList_eq (body : List (Stmt α)) : linesList body = body.flatMap lines := by
  induction body with
  | nil => rfl
  | cons s rest ih => rw [linesList, ih, List.flatMap_cons]

end Stmt

-- Printing the node of a statement prints these lines.

theorem spells_marked {mark : String} {clause : Option String → List Command}
    (hnone : clause none = []) (hsome : ∀ text, clause (some text) = [.write mark, .write text])
    (text : Option String) : Spells (clause text) (Token.marked mark text) := by
  cases text with
  | none =>
      rw [hnone]
      exact spells_nil
  | some text =>
      rw [hsome]
      exact .cons mark (spells_write text)

theorem spells_typeClause (type : Option String) :
    Spells (Print.typeClause type) (Token.marked ": " type) :=
  spells_marked rfl (fun _ => rfl) type

theorem Expr.spells_condition (e : Expr α) :
    Spells (Print.expr e.node.asCondition) e.conditionTokens := by
  rw [ExprNode.asCondition, e.needsGroupingAsCondition_node]
  exact spells_groupIf _ e.spells_node

namespace Command

variable {program : List Command} {header : List Token} {items : List (List Command)}
  {body lines : List Line}

-- A second block goes on where the first one ends.
theorem Prints.else_block (h : Prints program (Line.block header body))
    (hitems : PrintsBelow items lines) :
    Prints (program ++ [.write " else ", .block items])
      (⟨0, header ++ [.word (" " ++ openBrace)]⟩ ::
        (body.map Line.deeper ++ Line.block [.word (closeBrace ++ " else")] lines)) := by
  obtain ⟨first, rest, hlines, hrun⟩ := h
  obtain ⟨hfirst, rfl⟩ := List.cons.inj hlines
  injection hfirst with _ hfirst
  subst hfirst
  refine ⟨_, _, rfl, fun indentation p => ?_⟩
  rw [Printer.run_append, hrun, Printer.below_append, Printer.below_append, Line.block,
    Printer.below_cons, Printer.below_nil, Printer.put_zero, Printer.below_cons, Printer.put_zero,
    Printer.run, Printer.run, Printer.run, hitems.exec_block, Printer.exec, Printer.write_write,
    Printer.write_write]
  rfl

end Command

namespace Stmt

theorem printsBelow_body {body : List (Stmt α)}
    (h : ∀ s ∈ body, Prints (Print.item s.node) s.lines) :
    PrintsBelow (Print.items (body.map node)) (body.flatMap lines) := by
  induction body with
  | nil => exact printsBelow_nil
  | cons s rest ih =>
      obtain ⟨hs, hrest⟩ := List.forall_mem_cons.mp h
      exact hs.below (ih hrest)

theorem prints_node (s : Stmt α) : Prints (Print.item s.node) s.lines := by
  induction s using Stmt.induction with
  | bind binding name type initializer =>
      have hall := (((Spells.cons binding.keyword (.cons " " (spells_write name))).append
        (spells_typeClause type)).append (spells_write " = ")).append initializer.spells_node
      simpa [lines, Print.item, Print.decl, Print.modifiers, KeywordSet.keywords, KeywordSet.empty,
        Print.initialValue, Print.accessorClause] using hall.prints
  | guard condition elseBody ih =>
      have hopen := (Spells.cons "guard " condition.spells_condition).append
        (spells_write " else ")
      have hall := hopen.block (printsBelow_body ih)
        ([.word "guard "] ++ condition.conditionTokens ++ [.word " else"])
        (by simp [String.append_assoc])
      simpa [lines, Print.item, Print.stmt] using hall
  | branch condition thenBody elseBody ht he =>
      have hopen := (Spells.cons "if " condition.spells_condition).append (spells_write " ")
      have hthen := hopen.block (printsBelow_body ht)
        ([.word "if "] ++ condition.conditionTokens) (by simp [String.append_assoc])
      cases elseBody with
      | none => simpa [lines, elseLines, Line.block, Print.item, Print.stmt, Print.elseClause]
          using hthen
      | some elseBody =>
          have helse := hthen.else_block (printsBelow_body (he elseBody rfl))
          simpa [lines, elseLines, Print.item, Print.stmt, Print.elseClause] using helse
  | returns value =>
      cases value with
      | none => exact (spells_write "return").prints
      | some value => exact (Spells.cons "return " value.spells_node).prints
  | throws error => exact (Spells.cons "throw " error.spells_node).prints
  | defer body ih =>
      have hall := (spells_write "defer ").block (printsBelow_body ih)
        [.word "defer"] (by simp)
      simpa [lines, Print.item, Print.stmt] using hall
  | expression value => exact value.spells_node.prints

theorem printsBelow_nodes (body : List (Stmt α)) :
    PrintsBelow (Print.items (body.map node)) (body.flatMap lines) :=
  printsBelow_body fun s _ => s.prints_node

end Stmt

end SwiftSource

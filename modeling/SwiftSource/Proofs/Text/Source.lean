import SwiftSource.Proofs.Text.Decl

namespace SwiftSource

open Command (Prints PrintsBelow printsBelow_nil)

variable {α : Type}

theorem Decl.printsBelow_items (ds : List (Decl α)) :
    PrintsBelow (Print.items (ds.map fun d => .decl d.node)) (ds.flatMap lines) := by
  induction ds with
  | nil => exact printsBelow_nil
  | cons d rest ih => exact d.prints_node.below ih

namespace Source

-- Statements and declarations in a list begin on lines of their own.
def lines : Source α → List Line
  | .literal l => [⟨0, [l.token]⟩]
  | .expr e => [⟨0, e.tokens⟩]
  | .stmt s => s.lines
  | .stmts ss => ss.flatMap Stmt.lines
  | .decl d => d.lines
  | .decls ds => ds.flatMap Decl.lines

theorem text_eq_layout (indentation : Indentation) (source : Source α) :
    source.text indentation = layout indentation source.lines := by
  cases source with
  | literal l => exact l.spells_node.prints.text_eq indentation
  | expr e => exact e.spells_node.prints.text_eq indentation
  | stmt s => exact s.prints_node.text_eq indentation
  | stmts ss =>
      rw [text, passage_stmts]
      cases ss with
      | nil => rfl
      | cons s ss =>
          have hprints := s.prints_node.intercalate (Stmt.printsBelow_nodes ss)
          exact hprints.text_eq indentation
  | decl d => exact d.prints_node.text_eq indentation
  | decls ds =>
      rw [text, passage_decls]
      cases ds with
      | nil => rfl
      | cons d ds =>
          have hprints := d.prints_node.intercalate (Decl.printsBelow_items ds)
          exact hprints.text_eq indentation

end Source

-- The text of statements and declarations is their lines, each behind as many units of
-- indentation as it is deep. Lists are put together line by line, so that their text is
-- that of their elements one below the other.
theorem text_laid_out (o : Indentation) :
    (∀ s : Stmt α, s.text o = layout o s.lines) ∧
    (∀ d : Decl α, d.text o = layout o d.lines) ∧
    (∀ ss : List (Stmt α), Stmt.textList o ss = layout o (ss.flatMap Stmt.lines) ∧
      Stmt.textList o ss = "\n".intercalate (ss.map (Stmt.text o))) ∧
    (∀ ds : List (Decl α), Decl.textList o ds = layout o (ds.flatMap Decl.lines) ∧
      Decl.textList o ds = "\n".intercalate (ds.map (Decl.text o))) := by
  have hstmt (s : Stmt α) : s.text o = layout o s.lines := Source.text_eq_layout o (.stmt s)
  have hdecl (d : Decl α) : d.text o = layout o d.lines := Source.text_eq_layout o (.decl d)
  refine ⟨hstmt, hdecl, fun ss => ?_, fun ds => ?_⟩
  · have hlist : Stmt.textList o ss = layout o (ss.flatMap Stmt.lines) :=
      Source.text_eq_layout o (.stmts ss)
    refine ⟨hlist, ?_⟩
    rw [hlist, layout_flatMap o fun s : Stmt α => s.prints_node.ne_nil, funext hstmt]
  · have hlist : Decl.textList o ds = layout o (ds.flatMap Decl.lines) :=
      Source.text_eq_layout o (.decls ds)
    refine ⟨hlist, ?_⟩
    rw [hlist, layout_flatMap o fun d : Decl α => d.prints_node.ne_nil, funext hdecl]

end SwiftSource

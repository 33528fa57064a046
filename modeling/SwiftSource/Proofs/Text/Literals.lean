import SwiftSource.Proofs.Text.Source
import SwiftSource.Proofs.Text.Weave
import SwiftSource.Proofs.Tree.Blank

namespace SwiftSource

variable {α : Type}

-- The string literals in the lines of a tree are those of the tree, in the same order.

theorem Literal.contents_token (l : Literal) : Token.contents [l.token] = l.string?.toList := by
  cases l <;> rfl

namespace Token

@[simp]
theorem contents_label (label : Option String) : contents (Token.label label) = [] := by
  cases label <;> rfl

@[simp]
theorem contents_marked (mark : String) (text : Option String) :
    contents (Token.marked mark text) = [] := by
  cases text <;> rfl

@[simp]
theorem contents_commaSeparated (parts : List (List Token)) :
    contents (commaSeparated parts) = parts.flatMap contents :=
  contents_intercalate ", " parts

end Token

namespace Expr

theorem strings_eq (e : Expr α) : e.strings = e.outline.collect Fragment.string? := rfl

theorem contents_arguments {arguments : List (Argument (Expr α))}
    (h : ∀ a ∈ arguments, Token.contents a.value.tokens = a.value.strings) :
    Token.contents (Token.commaSeparated
        (arguments.map fun a => Token.label a.label ++ a.value.tokens)) =
      (arguments.map fun a => a.value.outline).flatMap (Outline.collect Fragment.string?) := by
  rw [Token.contents_commaSeparated, List.flatMap_map, List.flatMap_map]
  refine List.flatMap_congr fun a ha => ?_
  rw [Token.contents_append, Token.contents_label, List.nil_append, h a ha, strings_eq]

theorem contents_tokens (e : Expr α) : Token.contents e.tokens = e.strings := by
  induction e using Expr.induction with
  | literal value =>
      rw [tokens, value.contents_token]
      cases value <;> rfl
  | reference name payload => rfl
  | conditional condition thenBranch elseBranch hc ht he =>
      rw [strings_eq, outline_conditional, Outline.collect_of_none rfl]
      simp [tokens, hc, ht, he, strings_eq]
  | loop element collection body hc hb =>
      rw [strings_eq, outline_loop, Outline.collect_of_none rfl]
      simp [tokens, hc, hb, strings_eq]
  | call name arguments ih =>
      rw [strings_eq, outline_call, Outline.collect_of_none rfl, ← contents_arguments ih]
      simp [tokens]
  | method base name arguments hb ih =>
      rw [strings_eq, outline_method, Outline.collect_of_none rfl, List.flatMap_cons,
        ← contents_arguments ih, ← strings_eq, ← hb]
      simp [tokens]
  | binary left operator right hl hr =>
      rw [strings_eq, outline_binary, Outline.collect_of_none rfl]
      simp [tokens, hl, hr, strings_eq]
  | property base name hb =>
      rw [strings_eq, outline_property, Outline.collect_of_none rfl]
      simp [tokens, hb, strings_eq]
  | inline name type initializer ih =>
      rw [strings_eq, outline_inline, Outline.collect_of_none rfl]
      simp [tokens, ih, strings_eq]
  | array elements ih =>
      rw [strings_eq, outline_array, Outline.collect_of_none rfl, List.flatMap_map]
      simp only [tokens, elementTokens_eq, Token.contents_append, Token.contents_word,
        Token.contents_nil, Token.contents_commaSeparated, List.flatMap_map, List.nil_append,
        List.append_nil]
      exact List.flatMap_congr ih

end Expr

namespace Line

@[simp]
theorem flatMap_contents_deeper (lines : List Line) :
    (lines.map deeper).flatMap contents = lines.flatMap contents :=
  List.flatMap_map deeper contents lines

@[simp]
theorem contents_mk (depth : Nat) (tokens : List Token) :
    contents ⟨depth, tokens⟩ = Token.contents tokens := rfl

@[simp]
theorem contents_block (header : List Token) (lines : List Line) :
    (Line.block header lines).flatMap contents =
      Token.contents header ++ lines.flatMap contents := by
  simp [Line.block]

theorem contents_flatMap {β : Type} {lines : β → List Line} (outline : β → Outline (Fragment α))
    {items : List β}
    (h : ∀ x ∈ items, (lines x).flatMap contents = (outline x).collect Fragment.string?) :
    (items.flatMap lines).flatMap contents =
      (items.map outline).flatMap (Outline.collect Fragment.string?) := by
  rw [List.flatMap_assoc, List.flatMap_map]
  exact List.flatMap_congr h

end Line

theorem Expr.contents_conditionTokens (e : Expr α) :
    Token.contents e.conditionTokens = e.strings := by
  rw [conditionTokens, Token.contents_groupIf, e.contents_tokens]

namespace Stmt

theorem strings_eq (s : Stmt α) : s.strings = s.outline.collect Fragment.string? := rfl

theorem contents_lines (s : Stmt α) : s.lines.flatMap Line.contents = s.strings := by
  induction s using Stmt.induction with
  | bind binding name type initializer =>
      rw [strings_eq, outline_bind, Outline.collect_of_none rfl]
      simp [lines, initializer.contents_tokens, Expr.strings_eq]
  | guard condition elseBody ih =>
      rw [strings_eq, outline_guard, Outline.collect_of_none rfl, List.flatMap_cons,
        ← Line.contents_flatMap outline ih, ← Expr.strings_eq,
        ← condition.contents_conditionTokens]
      simp [lines]
  | branch condition thenBody elseBody ht he =>
      have helse : (elseLines elseBody).flatMap Line.contents =
          ((elseBody.getD []).map outline).flatMap (Outline.collect Fragment.string?) := by
        cases elseBody with
        | none => rfl
        | some body =>
            rw [Option.getD_some, ← Line.contents_flatMap outline (he body rfl)]
            simp [elseLines]
      rw [strings_eq, outline_branch, Outline.collect_of_none rfl, List.flatMap_cons,
        List.flatMap_append, ← Line.contents_flatMap outline ht, ← helse, ← Expr.strings_eq,
        ← condition.contents_conditionTokens]
      simp [lines]
  | returns value =>
      rw [strings_eq, outline_returns, Outline.collect_of_none rfl]
      cases value with
      | none => rfl
      | some value => simp [lines, value.contents_tokens, Expr.strings_eq]
  | throws error =>
      rw [strings_eq, outline_throws, Outline.collect_of_none rfl]
      simp [lines, error.contents_tokens, Expr.strings_eq]
  | defer body ih =>
      rw [strings_eq, outline_defer, Outline.collect_of_none rfl,
        ← Line.contents_flatMap outline ih]
      simp [lines]
  | expression value =>
      rw [strings_eq, outline_expression, Outline.collect_of_none rfl]
      simp [lines, value.contents_tokens, Expr.strings_eq]

theorem contents_bodyLines (body : List (Stmt α)) :
    (body.flatMap lines).flatMap Line.contents =
      (body.map outline).flatMap (Outline.collect Fragment.string?) :=
  Line.contents_flatMap outline fun s _ => s.contents_lines

end Stmt

namespace Token

@[simp]
theorem contents_flag (word : String) (applies : Bool) :
    contents (Token.flag word applies) = [] := by
  cases applies <;> rfl

@[simp]
theorem contents_access (access : Access) : contents access.tokens = [] := by
  cases access <;> rfl

@[simp]
theorem contents_parameter (p : Parameter) : contents p.tokens = [] := by
  have hlabel : contents ((p.label.map fun label => [.word label, .word " "]).getD []) = [] := by
    cases p.label <;> rfl
  simp [Parameter.tokens, hlabel]

@[simp]
theorem contents_parameters (parameters : List Parameter) :
    contents (Token.parameters parameters) = [] := by
  simp [Token.parameters, List.flatMap_map]

@[simp]
theorem contents_effects (isAsync canThrow : Bool) :
    contents (Token.effects isAsync canThrow) = [] := by
  simp [Token.effects]

@[simp]
theorem contents_conformances (types : List String) : contents (Token.conformances types) = [] := by
  cases types with
  | nil => rfl
  | cons type types => simp [Token.conformances, List.flatMap_map]

end Token

theorem ComputedDecl.contents_accessorLines (d : ComputedDecl α) :
    d.accessorLines.flatMap Line.contents =
      (d.getter.map Stmt.outline ++ d.setterBody.map Stmt.outline).flatMap
        (Outline.collect Fragment.string?) := by
  rw [accessorLines, List.flatMap_append, List.flatMap_append, Line.contents_block,
    Stmt.contents_bodyLines]
  obtain ⟨name, type, isStatic, getter, setter⟩ := d
  cases setter with
  | none => rfl
  | some setter => simp [Setter.lines, Stmt.contents_bodyLines, setterBody]

namespace Decl

theorem strings_eq (d : Decl α) : d.strings = d.outline.collect Fragment.string? := rfl

theorem contents_lines (d : Decl α) : d.lines.flatMap Line.contents = d.strings := by
  induction d using Decl.induction with
  | function d =>
      rw [strings_eq, outline_function, Outline.collect_of_none rfl, ← Stmt.contents_bodyLines]
      simp [lines, FunctionDecl.header]
  | property d =>
      rw [strings_eq, outline_property, Outline.collect_of_none rfl]
      cases hvalue : d.initializer with
      | none => simp [lines, PropertyDecl.tokens, PropertyDecl.header, hvalue]
      | some value =>
          simp [lines, PropertyDecl.tokens, PropertyDecl.header, hvalue, value.contents_tokens,
            Expr.strings_eq]
  | computed d =>
      rw [strings_eq, outline_computed, Outline.collect_of_none rfl, ← d.contents_accessorLines]
      simp [lines, ComputedDecl.header]
  | extension d ih =>
      rw [strings_eq, outline_extension, Outline.collect_of_none rfl,
        ← Line.contents_flatMap outline ih]
      simp [lines, ExtensionDecl.header]
  | struct d ih =>
      rw [strings_eq, outline_struct, Outline.collect_of_none rfl,
        ← Line.contents_flatMap outline ih]
      simp [lines, StructDecl.header]
  | initializer d =>
      rw [strings_eq, outline_initializer, Outline.collect_of_none rfl, ← Stmt.contents_bodyLines]
      simp [lines, InitializerDecl.header]

end Decl

theorem Source.contents_lines (source : Source α) :
    source.lines.flatMap Line.contents = source.strings := by
  cases source with
  | literal l => simpa [lines, strings] using l.contents_token
  | expr e => simpa [lines, strings] using e.contents_tokens
  | stmt s => exact s.contents_lines
  | stmts ss =>
      rw [lines, Stmt.contents_bodyLines, List.flatMap_map]
      rfl
  | decl d => exact d.contents_lines
  | decls ds =>
      rw [lines, Line.contents_flatMap Decl.outline fun d _ => d.contents_lines, List.flatMap_map]
      rfl

-- Blanking a tree blanks its lines, since no parenthesis depends on what a literal says.

theorem Literal.token_blank (l : Literal) : l.blank.token = l.token.blank := by
  cases l <;> rfl

namespace Token

theorem map_blank_of_contents {tokens : List Token} (h : contents tokens = []) :
    tokens.map blank = tokens := by
  induction tokens with
  | nil => rfl
  | cons token rest ih =>
      cases token with
      | word text => simp [ih h]
      | string content => exact absurd h (List.cons_ne_nil _ _)

@[simp]
theorem map_blank_label (label : Option String) :
    (Token.label label).map blank = Token.label label :=
  map_blank_of_contents (contents_label label)

@[simp]
theorem map_blank_marked (mark : String) (text : Option String) :
    (Token.marked mark text).map blank = Token.marked mark text :=
  map_blank_of_contents (contents_marked mark text)

@[simp]
theorem map_blank_commaSeparated (parts : List (List Token)) :
    (commaSeparated parts).map blank = commaSeparated (parts.map (List.map blank)) :=
  map_blank_intercalate ", " parts

end Token

namespace Expr

@[simp]
theorem isOperation_blank (e : Expr α) : e.blank.isOperation = e.isOperation := by
  induction e using Expr.induction with
  | inline name type initializer ih => exact ih
  | _ => rfl

@[simp]
theorem isLooseBase_blank (e : Expr α) : e.blank.isLooseBase = e.isLooseBase := by
  induction e using Expr.induction with
  | literal value => cases value <;> rfl
  | inline name type initializer ih => exact ih
  | _ => rfl

@[simp]
theorem showsBrace_blank (e : Expr α) : e.blank.showsBrace = e.showsBrace := by
  induction e using Expr.induction with
  | literal value => rfl
  | reference name payload => rfl
  | conditional condition thenBranch elseBranch hc ht he => simp [blank, showsBrace, hc, ht, he]
  | loop element collection body hc hb => rfl
  | call name arguments ih => rfl
  | method base name arguments hb ih => simp [blank, showsBrace, hb]
  | binary left operator right hl hr => simp [blank, showsBrace, hl, hr]
  | property base name hb => simp [blank, showsBrace, hb]
  | inline name type initializer ih => exact ih
  | array elements ih => rfl

theorem tokens_arguments_blank {arguments : List (Argument (Expr α))}
    (h : ∀ a ∈ arguments, a.value.blank.tokens = a.value.tokens.map Token.blank) :
    (arguments.map fun a => Token.label a.label ++ a.value.blank.tokens) =
      arguments.map fun a => (Token.label a.label ++ a.value.tokens).map Token.blank := by
  refine List.map_congr_left fun a ha => ?_
  rw [List.map_append, Token.map_blank_label, h a ha]

theorem tokens_blank (e : Expr α) : e.blank.tokens = e.tokens.map Token.blank := by
  induction e using Expr.induction with
  | literal value => simp [blank, tokens, value.token_blank]
  | reference name payload => rfl
  | conditional condition thenBranch elseBranch hc ht he => simp [blank, tokens, hc, ht, he]
  | loop element collection body hc hb => simp [blank, tokens, hc, hb]
  | call name arguments ih =>
      simpa [blank, tokens, Function.comp_def] using
        congrArg Token.commaSeparated (tokens_arguments_blank ih)
  | method base name arguments hb ih =>
      simpa [blank, tokens, hb, Function.comp_def] using
        congrArg Token.commaSeparated (tokens_arguments_blank ih)
  | binary left operator right hl hr => simp [blank, tokens, hl, hr]
  | property base name hb => simp [blank, tokens, hb]
  | inline name type initializer ih => exact ih
  | array elements ih =>
      simpa [blank, tokens, Function.comp_def] using
        congrArg Token.commaSeparated (List.map_congr_left ih)

@[simp]
theorem conditionTokens_blank (e : Expr α) :
    e.blank.conditionTokens = e.conditionTokens.map Token.blank := by
  rw [conditionTokens, conditionTokens, showsBrace_blank, tokens_blank, Token.map_blank_groupIf]

end Expr

namespace Line

@[simp]
theorem blank_mk (depth : Nat) (tokens : List Token) :
    blank ⟨depth, tokens⟩ = ⟨depth, tokens.map Token.blank⟩ := rfl

@[simp]
theorem blank_deeper (line : Line) : line.deeper.blank = line.blank.deeper := rfl

@[simp]
theorem map_blank_block (header : List Token) (lines : List Line) :
    (Line.block header lines).map blank =
      Line.block (header.map Token.blank) (lines.map blank) := by
  simp [Line.block]

-- A header without literals is its own blank.
theorem block_blank {header : List Token} {body blanked : List Line}
    (hheader : Token.contents header = []) (hbody : blanked = body.map blank) :
    Line.block header blanked = (Line.block header body).map blank := by
  rw [map_blank_block, Token.map_blank_of_contents hheader, hbody]

theorem flatMap_blank {β : Type} {lines : β → List Line} {blanked : β → β} {items : List β}
    (h : ∀ x ∈ items, lines (blanked x) = (lines x).map blank) :
    (items.map blanked).flatMap lines = (items.flatMap lines).map blank := by
  rw [List.flatMap_map, List.map_flatMap]
  exact List.flatMap_congr h

end Line

namespace Stmt

theorem lines_blank (s : Stmt α) : s.blank.lines = s.lines.map Line.blank := by
  induction s using Stmt.induction with
  | bind binding name type initializer => simp [blank, lines, initializer.tokens_blank]
  | guard condition elseBody ih => simp [blank, lines, Line.flatMap_blank ih]
  | branch condition thenBody elseBody ht he =>
      have helse : elseLines (blankOption elseBody) = (elseLines elseBody).map Line.blank := by
        cases elseBody with
        | none => rfl
        | some body => simp [elseLines, Line.flatMap_blank (he body rfl)]
      rw [blank, lines, helse]
      simp [lines, Line.flatMap_blank ht]
  | returns value =>
      cases value with
      | none => rfl
      | some value => simp [blank, lines, value.tokens_blank]
  | throws error => simp [blank, lines, error.tokens_blank]
  | defer body ih => simp [blank, lines, Line.flatMap_blank ih]
  | expression value => simp [blank, lines, value.tokens_blank]

@[simp]
theorem lines_map_blank (body : List (Stmt α)) :
    (body.map blank).flatMap lines = (body.flatMap lines).map Line.blank :=
  Line.flatMap_blank fun s _ => s.lines_blank

end Stmt

theorem ComputedDecl.accessorLines_blank (d : ComputedDecl α) :
    ComputedDecl.accessorLines
        { d with getter := d.getter.map Stmt.blank, setter := d.setter.map Setter.blank } =
      d.accessorLines.map Line.blank := by
  obtain ⟨name, type, isStatic, getter, setter⟩ := d
  cases setter with
  | none => simp [accessorLines]
  | some setter => simp [accessorLines, Setter.lines, Setter.blank]

namespace Decl

theorem lines_blank (d : Decl α) : d.blank.lines = d.lines.map Line.blank := by
  induction d using Decl.induction with
  | function d =>
      exact Line.block_blank (by simp [FunctionDecl.header]) (Stmt.lines_map_blank d.body)
  | property d =>
      have hheader : d.header.map Token.blank = d.header :=
        Token.map_blank_of_contents (by simp [PropertyDecl.header])
      rw [blank, lines, lines, List.map_singleton, Line.blank_mk, PropertyDecl.tokens,
        PropertyDecl.tokens, List.map_append, hheader]
      cases d.initializer with
      | none => rfl
      | some value => simp [PropertyDecl.header, value.tokens_blank]
  | computed d => exact Line.block_blank (by simp [ComputedDecl.header]) d.accessorLines_blank
  | extension d ih =>
      rw [blank, lines, lines, blankList_eq, linesList_eq, linesList_eq]
      exact Line.block_blank (by simp [ExtensionDecl.header]) (Line.flatMap_blank ih)
  | struct d ih =>
      rw [blank, lines, lines, blankList_eq, linesList_eq, linesList_eq]
      exact Line.block_blank (by simp [StructDecl.header]) (Line.flatMap_blank ih)
  | initializer d =>
      exact Line.block_blank (by simp [InitializerDecl.header]) (Stmt.lines_map_blank d.body)

end Decl

namespace Source

theorem lines_blank (source : Source α) : source.blank.lines = source.lines.map Line.blank := by
  cases source with
  | literal l => simp [blank, lines, l.token_blank]
  | expr e => simp [blank, lines, e.tokens_blank]
  | stmt s => exact s.lines_blank
  | stmts ss => exact Stmt.lines_map_blank ss
  | decl d => exact d.lines_blank
  | decls ds => exact Line.flatMap_blank fun d _ => d.lines_blank

-- The text around the string literals.
def fragments (indentation : Indentation) (source : Source α) : List String :=
  Token.fragments (layoutTokens indentation source.lines)

theorem fragments_blank (indentation : Indentation) (source : Source α) :
    source.blank.fragments indentation = source.fragments indentation := by
  rw [fragments, fragments, lines_blank, layoutTokens_blank, Token.fragments_map_blank]

theorem contents_layoutTokens_lines (indentation : Indentation) (source : Source α) :
    Token.contents (layoutTokens indentation source.lines) = source.strings := by
  rw [contents_layoutTokens, contents_lines]

theorem text_eq_weave (indentation : Indentation) (source : Source α) :
    source.text indentation =
      weave (source.fragments indentation) (source.strings.map Text.stringLiteral) := by
  rw [text_eq_layout, ← join_layoutTokens, Token.join_eq_weave, contents_layoutTokens_lines]
  rfl

theorem length_fragments (indentation : Indentation) (source : Source α) :
    (source.fragments indentation).length = source.strings.length + 1 := by
  rw [fragments, Token.length_fragments, contents_layoutTokens_lines]

end Source

-- String literals cannot inject code. The text is the quoted contents of the literals, in the
-- order in which they are visited, between fragments that the blank tree determines. Trees that
-- differ in their literals only share the fragments, and with them all parentheses, commas,
-- margins and line breaks, since a quoted literal never reaches the next line.
theorem string_literals_confined (o : Indentation) (t : Source α) :
    (t.blank.fragments o).length = t.strings.length + 1 ∧
    t.text o = weave (t.blank.fragments o) (t.strings.map Text.stringLiteral) ∧
    (∀ u : Source α, u.blank = t.blank →
      u.strings.length = t.strings.length ∧
      u.text o = weave (t.blank.fragments o) (u.strings.map Text.stringLiteral)) ∧
    ∀ content ∈ t.strings, '\n' ∉ (Text.stringLiteral content).toList := by
  refine ⟨?_, ?_, fun u hblank => ⟨?_, ?_⟩, fun content _ => newline_notMem_stringLiteral content⟩
  · rw [t.fragments_blank, t.length_fragments]
  · rw [t.fragments_blank, t.text_eq_weave]
  · have hlength : (u.fragments o).length = (t.fragments o).length := by
      rw [← u.fragments_blank, hblank, t.fragments_blank]
    rw [u.length_fragments, t.length_fragments] at hlength
    omega
  · rw [← hblank, u.fragments_blank, u.text_eq_weave]

def quotedCall (content : String) : Source Unit :=
  .expr (.call "f" [⟨none, .literal (.string content)⟩, ⟨none, .literal (.int 1)⟩])

-- A content that looks like the end of the call and of what is around it.
theorem string_literals_confined_call :
    (quotedCall ("\"); " ++ closeBrace)).blank = (quotedCall "a").blank ∧
    (quotedCall ("\"); " ++ closeBrace)).text .tabs =
      weave ((quotedCall "a").blank.fragments .tabs)
        [Text.stringLiteral ("\"); " ++ closeBrace)] :=
  ⟨rfl, ((string_literals_confined .tabs _).2.2.1 _ rfl).2⟩

end SwiftSource

import SwiftSource.Proofs.Layout.Inline
import SwiftSource.Proofs.Render.Grouping
import SwiftSource.Proofs.Text.Token

namespace SwiftSource

open Command (Spells spells_nil spells_write)

variable {α : Type}

-- The text of an expression, read off the tree.

def Double.spelling (x : Double) : String :=
  match x.kind with
  | .nan => "Double.nan"
  | .infinite => if x.isNegative then "-Double.infinity" else "Double.infinity"
  | .finite magnitude => signedNumeral x.isNegative magnitude

def Literal.token : Literal → Token
  | .int value => .word (toString value.toInt)
  | .double x => .word x.spelling
  | .string value => .string value
  | .bool value => .word (if value then "true" else "false")
  | .nil => .word "nil"

def Token.label : Option String → List Token
  | none => []
  | some label => [.word label, .word ": "]

namespace Expr

mutual

def tokens : Expr α → List Token
  | .literal value => [value.token]
  | .variable name _ => [.word name]
  | .conditional condition thenBranch elseBranch =>
    Token.groupIf condition.isOperation condition.tokens ++ [.word " ? "] ++
      Token.groupIf thenBranch.isOperation thenBranch.tokens ++ [.word " : "] ++
      Token.groupIf elseBranch.isOperation elseBranch.tokens
  | .loop element collection body =>
    Token.groupIf collection.isLooseBase collection.tokens ++
      [.word (".forEach " ++ openBrace ++ " "), .word element, .word " in "] ++ body.tokens ++
      [.word (" " ++ closeBrace)]
  | .call name arguments =>
    [.word name, .word "("] ++ Token.commaSeparated (argumentTokens arguments) ++ [.word ")"]
  | .method base name arguments =>
    Token.groupIf base.isLooseBase base.tokens ++ [.word ".", .word name, .word "("] ++
      Token.commaSeparated (argumentTokens arguments) ++ [.word ")"]
  | .binary left operator right =>
    Token.groupIf left.isOperation left.tokens ++ [.word " ", .word operator, .word " "] ++
      Token.groupIf right.isOperation right.tokens
  | .property base name =>
    Token.groupIf base.isLooseBase base.tokens ++ [.word ".", .word name]
  | .inline _ _ initializer => initializer.tokens
  | .array elements =>
    [.word "["] ++ Token.commaSeparated (elementTokens elements) ++ [.word "]"]

def argumentTokens : List (Argument (Expr α)) → List (List Token)
  | [] => []
  | ⟨label, value⟩ :: rest => (Token.label label ++ value.tokens) :: argumentTokens rest

def elementTokens : List (Expr α) → List (List Token)
  | [] => []
  | value :: rest => value.tokens :: elementTokens rest

end

@[simp]
theorem argumentTokens_eq (arguments : List (Argument (Expr α))) :
    argumentTokens arguments = arguments.map fun a => Token.label a.label ++ a.value.tokens := by
  induction arguments with
  | nil => rfl
  | cons a rest ih => rw [argumentTokens, ih, List.map_cons]

@[simp]
theorem elementTokens_eq (elements : List (Expr α)) :
    elementTokens elements = elements.map tokens := by
  induction elements with
  | nil => rfl
  | cons e rest ih => rw [elementTokens, ih, List.map_cons]

def spelling (e : Expr α) : String :=
  Token.join e.tokens

end Expr

-- Printing the node of an expression writes these tokens.

theorem spells_groupIf {node : ExprNode} {tokens : List Token} (needed : Bool)
    (h : Spells (Print.expr node) tokens) :
    Spells (Print.expr (node.groupIf needed)) (Token.groupIf needed tokens) := by
  cases needed with
  | true => exact ((spells_write "(").append h).append (spells_write ")")
  | false => exact h

theorem Double.spells_node (x : Double) : Spells (Print.expr x.node) [.word x.spelling] := by
  have hmember (name : String) :
      Spells (Print.expr (.member (.reference "Double") name)) [.word ("Double." ++ name)] :=
    ((spells_write "Double").append (Spells.cons "." (spells_write name))).of_join
      (by simp [← String.append_assoc])
  rcases x.node_cases with ⟨hkind, h⟩ | ⟨hkind, hsign, h⟩ | ⟨hkind, hsign, h⟩ | ⟨m, hkind, h⟩
  · simpa [h, spelling, hkind] using hmember "nan"
  · simpa [h, spelling, hkind, hsign] using hmember "infinity"
  · have hminus := Spells.cons "-" (hmember "infinity")
    rw [h]
    exact hminus.of_join (by simp [spelling, hkind, hsign])
  · simpa [h, spelling, hkind, Print.expr] using spells_write (signedNumeral x.isNegative m)

theorem Literal.spells_node (l : Literal) : Spells (Print.expr l.node) [l.token] := by
  cases l with
  | int value => exact spells_write _
  | double x => exact x.spells_node
  | string value =>
      intro indentation p
      simp [Literal.node, Literal.token, Print.expr, Printer.run, Printer.exec, Token.text]
  | bool value => exact spells_write _
  | nil => exact spells_write _

theorem spells_argumentLabel (label : Option String) :
    Spells (Print.argumentLabel label) (Token.label label) := by
  cases label with
  | none => exact spells_nil
  | some label => exact .cons label (spells_write ": ")

theorem spells_argumentList {arguments : List (Argument (Expr α))}
    (h : ∀ a ∈ arguments, Spells (Print.expr a.value.node) a.value.tokens) :
    Spells (Print.argumentList
        (separate (arguments.map fun a => Argument.mk a.label a.value.node)))
      (Token.commaSeparated (arguments.map fun a => Token.label a.label ++ a.value.tokens)) := by
  have hprint (entries : List (Separated (Argument ExprNode))) :
      Print.argumentList entries = entries.flatMap fun entry =>
        (Print.argumentLabel entry.element.label ++ Print.expr entry.element.value) ++
          Print.comma entry.comma := by
    induction entries with
    | nil => rfl
    | cons entry rest ih => rw [Print.argumentList, Print.argument, ih, List.flatMap_cons]
  rw [hprint, separate_map, List.flatMap_map]
  exact Spells.separate fun a ha => (spells_argumentLabel a.label).append (h a ha)

theorem spells_elementList {elements : List (Expr α)}
    (h : ∀ e ∈ elements, Spells (Print.expr e.node) e.tokens) :
    Spells (Print.elementList (separate (elements.map Expr.node)))
      (Token.commaSeparated (elements.map Expr.tokens)) := by
  have hprint (entries : List (Separated ExprNode)) :
      Print.elementList entries = entries.flatMap fun entry =>
        Print.expr entry.element ++ Print.comma entry.comma := by
    induction entries with
    | nil => rfl
    | cons entry rest ih => rw [Print.elementList, ih, List.flatMap_cons]
  rw [hprint, separate_map, List.flatMap_map]
  exact Spells.separate h

namespace Expr

theorem spells_asOperand {e : Expr α} (h : Spells (Print.expr e.node) e.tokens) :
    Spells (Print.expr e.node.asOperand) (Token.groupIf e.isOperation e.tokens) := by
  rw [ExprNode.asOperand, e.isCompound_node]
  exact spells_groupIf _ h

theorem spells_asBase {e : Expr α} (h : Spells (Print.expr e.node) e.tokens) :
    Spells (Print.expr e.node.asBase) (Token.groupIf e.isLooseBase e.tokens) := by
  rw [ExprNode.asBase, e.needsGroupingAsBase_node]
  exact spells_groupIf _ h

theorem spells_node (e : Expr α) : Spells (Print.expr e.node) e.tokens := by
  induction e using Expr.induction with
  | literal value => exact value.spells_node
  | reference name payload => exact spells_write name
  | conditional condition thenBranch elseBranch hc ht he =>
      exact ((((spells_asOperand hc).append (spells_write " ? ")).append
        (spells_asOperand ht)).append (spells_write " : ")).append (spells_asOperand he)
  | loop element collection body hc hb =>
      have hopen : Spells [.write ".", .write "forEach", .write " ", .write (openBrace ++ " "),
          .write element, .write " in "]
          [.word (".forEach " ++ openBrace ++ " "), .word element, .word " in "] :=
        (Spells.cons "." (.cons "forEach" (.cons " " (.cons (openBrace ++ " ") (.cons element
          (spells_write " in ")))))).of_join (by simp [← String.append_assoc])
      have hclose : Spells [.write " ", .write closeBrace] [.word (" " ++ closeBrace)] :=
        (Spells.cons " " (spells_write closeBrace)).of_join (by simp)
      have hall := ((spells_asBase hc).append hopen).append (hb.append hclose)
      simpa [tokens, ExprNode.forEach, separate, Print.expr, Print.trailingClosure,
        Print.closureBody, Print.inlineBlock, Print.names, Print.comma, Print.items,
        Print.item] using hall
  | call name arguments ih =>
      have hall := ((Spells.cons name (spells_write "(")).append
        (spells_argumentList ih)).append (spells_write ")")
      simpa [tokens, Print.expr, Print.trailingClosure] using hall
  | method base name arguments hb ih =>
      have hall := (((spells_asBase hb).append
        (.cons "." (.cons name (spells_write "(")))).append (spells_argumentList ih)).append
          (spells_write ")")
      simpa [tokens, Print.expr, Print.trailingClosure] using hall
  | binary left operator right hl hr =>
      exact ((spells_asOperand hl).append
        (.cons " " (.cons operator (spells_write " ")))).append (spells_asOperand hr)
  | property base name hb =>
      exact (spells_asBase hb).append (.cons "." (spells_write name))
  | inline name type initializer ih => exact ih
  | array elements ih =>
      have hall := ((spells_write "[").append (spells_elementList ih)).append (spells_write "]")
      simpa [tokens, Print.expr] using hall

theorem text_eq_spelling (indentation : Indentation) (e : Expr α) :
    e.text indentation = e.spelling := by
  have hrun := e.spells_node indentation .start
  have houtput : e.text indentation = (Printer.start.write indentation e.spelling).output :=
    congrArg Printer.output hrun
  rw [houtput, Printer.output_write_of_depth_zero indentation rfl, Printer.start,
    String.empty_append]

mutual

-- The names, labels and operators that are written out.
def names : Expr α → List String
  | .literal _ => []
  | .variable name _ => [name]
  | .conditional condition thenBranch elseBranch =>
    condition.names ++ thenBranch.names ++ elseBranch.names
  | .loop element collection body => collection.names ++ [element] ++ body.names
  | .call name arguments => [name] ++ argumentNames arguments
  | .method base name arguments => base.names ++ [name] ++ argumentNames arguments
  | .binary left operator right => left.names ++ [operator] ++ right.names
  | .property base name => base.names ++ [name]
  | .inline _ _ initializer => initializer.names
  | .array elements => elementNames elements

def argumentNames : List (Argument (Expr α)) → List String
  | [] => []
  | ⟨label, value⟩ :: rest => label.toList ++ value.names ++ argumentNames rest

def elementNames : List (Expr α) → List String
  | [] => []
  | value :: rest => value.names ++ elementNames rest

end

@[simp]
theorem argumentNames_eq (arguments : List (Argument (Expr α))) :
    argumentNames arguments = arguments.flatMap fun a => a.label.toList ++ a.value.names := by
  induction arguments with
  | nil => rfl
  | cons a rest ih => rw [argumentNames, ih, List.flatMap_cons]

@[simp]
theorem elementNames_eq (elements : List (Expr α)) :
    elementNames elements = elements.flatMap names := by
  induction elements with
  | nil => rfl
  | cons e rest ih => rw [elementNames, ih, List.flatMap_cons]

end Expr

theorem Literal.text_eq_token (indentation : Indentation) (l : Literal) :
    l.text indentation = l.token.text := by
  have hspelling : l.text indentation = Token.join [l.token] :=
    (Expr.literal l : Expr Unit).text_eq_spelling indentation
  simpa using hspelling

namespace Token

-- The text of the tokens goes over the end of the line.
def Breaks (tokens : List Token) : Prop :=
  '\n' ∈ (join tokens).toList

@[simp]
theorem breaks_nil : ¬ Breaks [] := by
  simp [Breaks]

@[simp]
theorem breaks_cons (token : Token) (tokens : List Token) :
    Breaks (token :: tokens) ↔ '\n' ∈ token.text.toList ∨ Breaks tokens := by
  simp [Breaks]

@[simp]
theorem breaks_append (xs ys : List Token) : Breaks (xs ++ ys) ↔ Breaks xs ∨ Breaks ys := by
  simp [Breaks]

@[simp]
theorem breaks_groupIf (needed : Bool) (tokens : List Token) :
    Breaks (groupIf needed tokens) ↔ Breaks tokens := by
  cases needed <;> simp [groupIf]

theorem breaks_commaSeparated (parts : List (List Token)) :
    Breaks (commaSeparated parts) ↔ ∃ part ∈ parts, Breaks part := by
  induction parts with
  | nil => simp [commaSeparated]
  | cons part rest ih =>
      cases rest with
      | nil => simp [commaSeparated]
      | cons next rest =>
          have hrest : Breaks (List.intercalate [.word ", "] (next :: rest)) ↔ _ := ih
          simp [commaSeparated, List.intercalate_cons_cons, hrest]

-- A list breaks the line only where one of its elements does.
theorem breaks_list_iff {β : Type} {tokens : β → List Token} {names : β → List String}
    {items : List β}
    (h : ∀ x ∈ items, (Breaks (tokens x) ↔ ∃ name ∈ names x, '\n' ∈ name.toList)) :
    Breaks (commaSeparated (items.map tokens)) ↔
      ∃ name ∈ items.flatMap names, '\n' ∈ name.toList := by
  rw [breaks_commaSeparated]
  constructor
  · rintro ⟨part, hpart, hbreaks⟩
    obtain ⟨x, hx, rfl⟩ := List.mem_map.mp hpart
    obtain ⟨name, hname, hbreak⟩ := (h x hx).mp hbreaks
    exact ⟨name, List.mem_flatMap.mpr ⟨x, hx, hname⟩, hbreak⟩
  · rintro ⟨name, hname, hbreak⟩
    obtain ⟨x, hx, hname⟩ := List.mem_flatMap.mp hname
    exact ⟨tokens x, List.mem_map_of_mem hx, (h x hx).mpr ⟨name, hname, hbreak⟩⟩

theorem breaks_label (label : Option String) :
    Breaks (Token.label label) ↔ ∃ w ∈ label, '\n' ∈ w.toList := by
  cases label <;> simp [Token.label]

end Token

theorem Literal.newline_notMem_token (l : Literal) : '\n' ∉ l.token.text.toList := by
  cases l with
  | int value => exact newline_notMem_toString value.toInt
  | double x =>
      cases hkind : x.kind with
      | nan => simp [token, Double.spelling, hkind]
      | infinite => cases hsign : x.isNegative <;> simp [token, Double.spelling, hkind, hsign]
      | finite m => simpa [token, Double.spelling, hkind] using newline_notMem_signedNumeral hkind
  | string value => exact newline_notMem_stringLiteral value
  | bool value => cases value <;> simp [token]
  | nil => simp [token]

namespace Expr

-- Everything between the names stays on the line.
theorem breaks_tokens_iff (e : Expr α) :
    Token.Breaks e.tokens ↔ ∃ name ∈ e.names, '\n' ∈ name.toList := by
  have hargument {a : Argument (Expr α)}
      (h : Token.Breaks a.value.tokens ↔ ∃ name ∈ a.value.names, '\n' ∈ name.toList) :
      Token.Breaks (Token.label a.label ++ a.value.tokens) ↔
        ∃ name ∈ a.label.toList ++ a.value.names, '\n' ∈ name.toList := by
    simp [Token.breaks_label, h, or_and_right, exists_or]
  induction e using Expr.induction with
  | literal value => simp [tokens, names, value.newline_notMem_token]
  | reference name payload => simp [tokens, names]
  | conditional condition thenBranch elseBranch hc ht he =>
      simp [tokens, names, hc, ht, he, or_and_right, exists_or]
  | loop element collection body hc hb =>
      simp [tokens, names, hc, hb, or_and_right, exists_or]
  | call name arguments ih =>
      have harguments := Token.breaks_list_iff fun a ha => hargument (ih a ha)
      simp [tokens, names, harguments, or_and_right, exists_or]
  | method base name arguments hb ih =>
      have harguments := Token.breaks_list_iff fun a ha => hargument (ih a ha)
      simp [tokens, names, hb, harguments, or_and_right, exists_or]
  | binary left operator right hl hr => simp [tokens, names, hl, hr, or_and_right, exists_or]
  | property base name hb => simp [tokens, names, hb, or_and_right, exists_or]
  | inline name type initializer ih => exact ih
  | array elements ih =>
      have helements := Token.breaks_list_iff ih
      simp [tokens, names, helements]

end Expr

-- Rendering and printing an expression gives the text read off the tree, whatever the
-- indentation. It goes over the end of a line exactly where a name does.
theorem expression_text_direct (e : Expr α) :
    (∀ o, e.text o = e.spelling) ∧ (∀ o o', e.text o = e.text o') ∧
      ∀ o, '\n' ∈ (e.text o).toList ↔ ∃ name ∈ e.names, '\n' ∈ name.toList := by
  refine ⟨fun o => e.text_eq_spelling o, fun o o' => ?_, fun o => ?_⟩
  · rw [e.text_eq_spelling, e.text_eq_spelling]
  · rw [e.text_eq_spelling]
    exact e.breaks_tokens_iff

end SwiftSource

import SwiftSource.Proofs.Nesting.Node
import SwiftSource.Proofs.Text.Stmt

namespace SwiftSource

variable {α : Type}

-- Rendering adds no leaves but numbers and a few fixed names.

theorem isDelimiter_of_isNumeric {c : Char} (h : isNumeric c = true) : isDelimiter c = false := by
  cases hdelimiter : isDelimiter c with
  | false => rfl
  | true =>
      simp only [isDelimiter, isOpening, isClosing, Bool.or_eq_true, beq_iff_eq] at hdelimiter
      rcases hdelimiter with (((rfl | rfl) | rfl) | ((rfl | rfl) | rfl)) | rfl <;>
        exact absurd h (by decide)

theorem isBare_of_isNumeric {text : String} (h : ∀ c ∈ text.toList, isNumeric c = true) :
    isBare text = true :=
  List.all_eq_true.mpr fun c hc => by simp [isDelimiter_of_isNumeric (h c hc)]

theorem Literal.allBare_leaves (l : Literal) : AllBare (Leaves.expr l.node) := by
  cases l with
  | int value => simpa [node, Leaves.expr] using isBare_of_isNumeric (isNumeric_of_mem_toString _)
  | double x =>
      rw [node]
      rcases x.node_cases with ⟨-, h⟩ | ⟨-, -, h⟩ | ⟨-, -, h⟩ | ⟨m, hkind, h⟩
      · rw [h]
        exact List.all_eq_true.mp rfl
      · rw [h]
        exact List.all_eq_true.mp rfl
      · rw [h]
        exact List.all_eq_true.mp rfl
      · simpa [h, Leaves.expr] using isBare_of_isNumeric (isNumeric_of_mem_signedNumeral hkind)
  | string value => simp [node, Leaves.expr]
  | bool value => simp [node, Leaves.expr]
  | nil => simp [node, Leaves.expr]

namespace Leaves

@[simp]
theorem expr_groupIf (needed : Bool) (node : ExprNode) :
    expr (node.groupIf needed) = expr node := by
  cases needed with
  | false => rfl
  | true => rfl

@[simp]
theorem argumentList_separate (arguments : List (Argument ExprNode)) :
    argumentList (separate arguments) =
      arguments.flatMap fun a => a.label.toList ++ expr a.value := by
  have heq (entries : List (Separated (Argument ExprNode))) :
      argumentList entries = (entries.map Separated.element).flatMap fun a =>
        a.label.toList ++ expr a.value := by
    induction entries with
    | nil => rfl
    | cons entry rest ih => rw [argumentList, ih, List.map_cons, List.flatMap_cons]
  rw [heq, map_element_separate]

@[simp]
theorem elementList_separate (elements : List ExprNode) :
    elementList (separate elements) = elements.flatMap expr := by
  have heq (entries : List (Separated ExprNode)) :
      elementList entries = (entries.map Separated.element).flatMap expr := by
    induction entries with
    | nil => rfl
    | cons entry rest ih => rw [elementList, ih, List.map_cons, List.flatMap_cons]
  rw [heq, map_element_separate]

end Leaves

namespace AllBare

theorem flatMap_iff {β : Type} (items : List β) (leaves : β → List String) :
    AllBare (items.flatMap leaves) ↔ ∀ x ∈ items, AllBare (leaves x) := by
  simp only [AllBare, List.mem_flatMap]
  constructor
  · intro h x hx leaf hleaf
    exact h leaf ⟨x, hx, hleaf⟩
  · rintro h leaf ⟨x, hx, hleaf⟩
    exact h x hx leaf hleaf

end AllBare

namespace Expr

theorem allBare_arguments {arguments : List (Argument (Expr α))}
    (ih : ∀ a ∈ arguments, AllBare a.value.names → AllBare (Leaves.expr a.value.node))
    (h : AllBare (argumentNames arguments)) :
    AllBare (Leaves.argumentList
      (separate (arguments.map fun a => ⟨a.label, a.value.node⟩))) := by
  rw [argumentNames_eq, AllBare.flatMap_iff] at h
  rw [Leaves.argumentList_separate, List.flatMap_map, AllBare.flatMap_iff]
  intro a ha
  obtain ⟨hlabel, hvalue⟩ := (AllBare.append_iff _ _).mp (h a ha)
  exact (AllBare.append_iff _ _).mpr ⟨hlabel, ih a ha hvalue⟩

theorem allBare_leaves {e : Expr α} (h : AllBare e.names) : AllBare (Leaves.expr e.node) := by
  induction e using Expr.induction with
  | literal value => exact value.allBare_leaves
  | reference name payload => exact h
  | conditional condition thenBranch elseBranch hc ht he =>
      simp only [names, AllBare.append_iff] at h
      simp [Leaves.expr, ExprNode.asOperand, hc h.1.1, ht h.1.2, he h.2]
  | loop element collection body hc hb =>
      simp only [names, AllBare.append_iff, AllBare.cons_iff] at h
      obtain ⟨⟨hcollection, helement, -⟩, hbody⟩ := h
      have hname : isBare "forEach" = true := rfl
      simp [ExprNode.forEach, ExprNode.asBase, Leaves.expr, Leaves.argumentList,
        Leaves.trailingClosure, Leaves.closureBody, Leaves.names, Leaves.items, Leaves.item,
        separate, hc hcollection, hb hbody, helement, hname]
  | call name arguments ih =>
      simp only [names, AllBare.append_iff, AllBare.cons_iff] at h
      rw [node_call]
      simp only [Leaves.expr, Leaves.trailingClosure, AllBare.append_iff, AllBare.cons_iff]
      exact ⟨⟨h.1, allBare_arguments ih h.2⟩, by simp⟩
  | method base name arguments hb ih =>
      simp only [names, AllBare.append_iff, AllBare.cons_iff] at h
      obtain ⟨⟨hbase, hname⟩, harguments⟩ := h
      rw [node_method, ExprNode.asBase]
      simp only [Leaves.expr, Leaves.trailingClosure, Leaves.expr_groupIf, AllBare.append_iff,
        AllBare.cons_iff]
      exact ⟨⟨⟨hb hbase, hname⟩, allBare_arguments ih harguments⟩, by simp⟩
  | binary left operator right hl hr =>
      simp only [names, AllBare.append_iff] at h
      simp [Leaves.expr, ExprNode.asOperand, hl h.1.1, (AllBare.cons_iff _ _).mp h.1.2, hr h.2]
  | property base name hb =>
      simp only [names, AllBare.append_iff] at h
      simp [Leaves.expr, ExprNode.asBase, hb h.1, (AllBare.cons_iff _ _).mp h.2]
  | inline name type initializer ih => exact ih h
  | array elements ih =>
      rw [names, elementNames_eq, AllBare.flatMap_iff] at h
      rw [node_array, Leaves.expr, Leaves.elementList_separate, List.flatMap_map,
        AllBare.flatMap_iff]
      exact fun e he => ih e he (h e he)

end Expr

-- Where the first brace outside of all brackets and string literals opens.
def topBrace? (text : String) : Option Nat :=
  (Cursor.code 0).firstBrace? text.toList

-- A condition whose text shows a brace is put in parentheses.
def conditionText (text : String) : String :=
  if (topBrace? text).isSome then "(" ++ text ++ ")" else text

theorem Command.Nests.nested_text {shows : Bool} {program : List Command}
    (h : Nests shows program) (indentation : Indentation) :
    Nested shows (text indentation program).toList := by
  obtain ⟨added, hout, hadded⟩ := h indentation .start
  have htext : (text indentation program).toList = added := hout
  rwa [htext]

theorem Nested.firstBrace?_append_brace {cs : List Char} (h : Nested false cs)
    (rest : List Char) : (Cursor.code 0).firstBrace? (cs ++ '{' :: rest) = some cs.length := by
  have hnone : (Cursor.code 0).firstBrace? cs = none := by
    simpa using h.isSome_firstBrace?
  rw [Cursor.firstBrace?_append, hnone, h.scan_eq]
  simp [Cursor.firstBrace?]

namespace Expr

variable {e : Expr α}

theorem nested_text (h : AllBare e.names) (indentation : Indentation) :
    Nested e.showsBrace (e.text indentation).toList := by
  have hnests := nests_expr e.node (allBare_leaves h)
  rw [e.needsGroupingAsCondition_node] at hnests
  exact hnests.nested_text indentation

theorem isSome_topBrace?_text (h : AllBare e.names) (indentation : Indentation) :
    (topBrace? (e.text indentation)).isSome = e.showsBrace :=
  (nested_text h indentation).isSome_firstBrace?

theorem join_conditionTokens (h : AllBare e.names) (indentation : Indentation) :
    Token.join e.conditionTokens = conditionText (e.text indentation) := by
  rw [conditionText, isSome_topBrace?_text h, conditionTokens, e.text_eq_spelling, spelling]
  cases e.showsBrace <;> simp [Token.groupIf, String.append_assoc]

theorem nested_conditionText (h : AllBare e.names) (indentation : Indentation) :
    Nested false (conditionText (e.text indentation)).toList := by
  have htext := nested_text h indentation
  rw [conditionText, isSome_topBrace?_text h]
  cases hbrace : e.showsBrace with
  | false =>
      rw [hbrace] at htext
      exact htext
  | true =>
      have henclosed : Nested false ('(' :: ((e.text indentation).toList ++ [')'])) :=
        htext.enclosed '(' ')' rfl rfl
      simpa using henclosed

end Expr

namespace Stmt

variable {condition : Expr α}

-- The statements of a body between braces.
def blockText (indentation : Indentation) (body : List (Stmt α)) : String :=
  (Passage.block (body.map node)).text indentation

def elseText (indentation : Indentation) : Option (List (Stmt α)) → String
  | none => ""
  | some body => " else " ++ blockText indentation body

theorem appends_block (indentation : Indentation) (body : List (Stmt α)) :
    Command.Appends indentation [.block (Print.items (body.map node))]
      (blockText indentation body) := by
  obtain ⟨tail, hblock⟩ := (printsBelow_nodes body).exists_appends_block indentation
  have htext : blockText indentation body = openBrace ++ tail := hblock.text_eq
  rwa [htext]

theorem appends_elseClause (indentation : Indentation) (elseBody : Option (List (Stmt α))) :
    Command.Appends indentation (Print.elseClause (elseBody.map (List.map node)))
      (elseText indentation elseBody) := by
  cases elseBody with
  | none => exact Command.spells_nil.appends indentation
  | some body =>
      have helse := (Command.spells_write " else ").appends indentation
      simpa [Print.elseClause, elseText] using helse.append (appends_block indentation body)

-- A condition behind a keyword and in front of a word.
theorem appends_condition (h : AllBare condition.names) (indentation : Indentation)
    (keyword word : String) :
    Command.Appends indentation
      (.write keyword :: Print.expr condition.node.asCondition ++ [.write word])
      (keyword ++ conditionText (condition.text indentation) ++ word) := by
  have hspells := (Command.Spells.cons keyword condition.spells_condition).append
    (Command.spells_write word)
  have hjoin := condition.join_conditionTokens h indentation
  simpa [hjoin, String.append_assoc] using hspells.appends indentation

theorem text_guard (h : AllBare condition.names) (indentation : Indentation)
    (elseBody : List (Stmt α)) :
    (Stmt.guard condition elseBody).text indentation =
      "guard " ++ conditionText (condition.text indentation) ++ " else " ++
        blockText indentation elseBody := by
  have hall := (appends_condition h indentation "guard " " else ").append
    (appends_block indentation elseBody)
  have hcommands : Print.item (Stmt.guard condition elseBody).node =
      (.write "guard " :: Print.expr condition.node.asCondition ++ [.write " else "]) ++
        [.block (Print.items (elseBody.map node))] := by
    simp [Print.item, Print.stmt]
  rw [← hcommands] at hall
  exact hall.text_eq

theorem text_branch (h : AllBare condition.names) (indentation : Indentation)
    (thenBody : List (Stmt α)) (elseBody : Option (List (Stmt α))) :
    (Stmt.branch condition thenBody elseBody).text indentation =
      "if " ++ conditionText (condition.text indentation) ++ " " ++
        (blockText indentation thenBody ++ elseText indentation elseBody) := by
  have hall := (appends_condition h indentation "if " " ").append
    ((appends_block indentation thenBody).append (appends_elseClause indentation elseBody))
  have hcommands : Print.item (Stmt.branch condition thenBody elseBody).node =
      (.write "if " :: Print.expr condition.node.asCondition ++ [.write " "]) ++
        ([.block (Print.items (thenBody.map node))] ++
          Print.elseClause (elseBody.map (List.map node))) := by
    simp [Print.item, Print.stmt]
  rw [← hcommands] at hall
  exact hall.text_eq

-- The first brace behind the condition is that of the body.
theorem topBrace?_condition (h : AllBare condition.names) (indentation : Indentation)
    (keyword word : String) (hkeyword : isBare keyword = true) (hword : isBare word = true)
    (body : List (Stmt α)) (rest : String) :
    topBrace? (keyword ++ conditionText (condition.text indentation) ++ word ++
        (blockText indentation body ++ rest)) =
      some (keyword ++ conditionText (condition.text indentation) ++ word).length := by
  have hheader : Nested false
      (keyword ++ conditionText (condition.text indentation) ++ word).toList := by
    rw [String.toList_append, String.toList_append]
    exact ((nested_of_isBare hkeyword).append_false
      (condition.nested_conditionText h indentation)).append_false (nested_of_isBare hword)
  obtain ⟨tail, hblock⟩ := (printsBelow_nodes body).exists_appends_block indentation
  have htext : blockText indentation body = openBrace ++ tail := hblock.text_eq
  have hchars : (blockText indentation body ++ rest).toList = '{' :: (tail ++ rest).toList := by
    simp [htext]
  rw [topBrace?, String.toList_append, hchars, hheader.firstBrace?_append_brace,
    String.length_toList]

end Stmt

-- Condition grouping is exact at the level of text. A node needs grouping as a condition exactly
-- if its text shows a brace. In the text of a guard or a branch the condition is in parentheses
-- exactly if its own text shows a brace, so the first brace is the one that opens the body.
-- Leaves and names are taken to be free of brackets, braces and quotes. What string literals
-- say is not restricted, nor are the names in bodies.
theorem condition_grouping_exact (o : Indentation) :
    (∀ node : ExprNode, AllBare (Leaves.expr node) →
      (node.needsGroupingAsCondition = true ↔
        (topBrace? ((Passage.expr node).text o)).isSome = true)) ∧
    (∀ (condition : Expr α) (elseBody : List (Stmt α)), AllBare condition.names →
      let header := "guard " ++ conditionText (condition.text o) ++ " else "
      (Stmt.guard condition elseBody).text o = header ++ Stmt.blockText o elseBody ∧
      topBrace? ((Stmt.guard condition elseBody).text o) = some header.length) ∧
    ∀ (condition : Expr α) (thenBody : List (Stmt α)) (elseBody : Option (List (Stmt α))),
      AllBare condition.names →
      let header := "if " ++ conditionText (condition.text o) ++ " "
      (Stmt.branch condition thenBody elseBody).text o =
        header ++ (Stmt.blockText o thenBody ++ Stmt.elseText o elseBody) ∧
      topBrace? ((Stmt.branch condition thenBody elseBody).text o) = some header.length := by
  refine ⟨fun node h => ?_, fun condition elseBody h => ?_,
    fun condition thenBody elseBody h => ?_⟩
  · have hshows : (topBrace? ((Passage.expr node).text o)).isSome =
        node.needsGroupingAsCondition :=
      ((nests_expr node h).nested_text o).isSome_firstBrace?
    rw [hshows]
  · have htext := Stmt.text_guard h o elseBody
    have hbrace := Stmt.topBrace?_condition h o "guard " " else " rfl rfl elseBody ""
    rw [String.append_empty] at hbrace
    exact ⟨htext, by rw [htext, hbrace]⟩
  · have htext := Stmt.text_branch h o thenBody elseBody
    have hbrace := Stmt.topBrace?_condition h o "if " " " rfl rfl thenBody
      (Stmt.elseText o elseBody)
    exact ⟨htext, by rw [htext, hbrace]⟩

-- `f { "{" }`
def bracedCall : ExprNode :=
  .call (.reference "f") [] (some ⟨[], [.expr (.string openBrace)]⟩)

-- `xs.forEach { x in "} {" }`
def bracedLoop : Expr Unit :=
  .loop "x" (.variable "xs" ()) (.literal (.string (closeBrace ++ " " ++ openBrace)))

-- `guard (xs.forEach { x in "} {" }) else {` shows the brace of the body first.
theorem condition_grouping_exact_loop :
    AllBare (Leaves.expr bracedCall) ∧
    (topBrace? ((Passage.expr bracedCall).text .tabs)).isSome = true ∧
    AllBare bracedLoop.names ∧
    topBrace? ((Stmt.guard bracedLoop []).text .tabs) = some 39 ∧
    topBrace? ((Stmt.branch bracedLoop [.returns none] (some [])).text .tabs) = some 31 := by
  have hleaves : AllBare (Leaves.expr bracedCall) := List.all_eq_true.mp rfl
  have hnames : AllBare bracedLoop.names := List.all_eq_true.mp rfl
  obtain ⟨hnode, hguard, hbranch⟩ := condition_grouping_exact (α := Unit) .tabs
  refine ⟨hleaves, (hnode _ hleaves).mp rfl, hnames, ?_, ?_⟩
  · exact (hguard _ [] hnames).2.trans (by decide)
  · exact (hbranch _ [.returns none] (some []) hnames).2.trans (by decide)

end SwiftSource

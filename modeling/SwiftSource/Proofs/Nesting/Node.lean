import SwiftSource.Node.Grouping
import SwiftSource.Node.Print
import SwiftSource.Proofs.Nesting.Program

namespace SwiftSource

-- The texts that a node holds and printing copies, all but the contents of string literals.

namespace Leaves

def names (entries : List (Separated String)) : List String :=
  entries.map Separated.element

def parameters (entries : List (Separated Parameter)) : List String :=
  entries.flatMap fun entry =>
    entry.element.label.toList ++ [entry.element.name, entry.element.type] ++
      entry.element.defaultValue.toList

mutual

def expr : ExprNode → List String
  | .integer text => [text]
  | .float text => [text]
  | .string _ => []
  | .bool _ => []
  | .nil => []
  | .reference name => [name]
  | .ternary condition thenBranch elseBranch =>
    expr condition ++ expr thenBranch ++ expr elseBranch
  | .infixOp left operator right => expr left ++ [operator] ++ expr right
  | .prefixOp operator operand => [operator] ++ expr operand
  | .member base name => expr base ++ [name]
  | .call callee arguments trailing =>
    expr callee ++ argumentList arguments ++ trailingClosure trailing
  | .closure closure => closureBody closure
  | .array elements => elementList elements
  | .parenthesized inner => expr inner

def argumentList : List (Separated (Argument ExprNode)) → List String
  | [] => []
  | ⟨⟨label, value⟩, _⟩ :: rest => label.toList ++ expr value ++ argumentList rest

def elementList : List (Separated ExprNode) → List String
  | [] => []
  | ⟨value, _⟩ :: rest => expr value ++ elementList rest

def closureBody : Closure ItemNode → List String
  | ⟨entries, statements⟩ => names entries ++ items statements

def trailingClosure : Option (Closure ItemNode) → List String
  | none => []
  | some closure => closureBody closure

def stmt : StmtNode → List String
  | .guard condition body => expr condition ++ items body
  | .branch condition body elseBody => expr condition ++ items body ++ elseItems elseBody
  | .returns value => optionalExpr value
  | .throws value => expr value
  | .defer body => items body

def optionalExpr : Option ExprNode → List String
  | none => []
  | some value => expr value

def elseItems : Option (List ItemNode) → List String
  | none => []
  | some body => items body

def decl : DeclNode → List String
  | .variable _ _ name type initializer accessorList =>
    [name] ++ type.toList ++ optionalExpr initializer ++ accessorClause accessorList
  | .function _ name entries _ returnType body =>
    [name] ++ parameters entries ++ returnType.toList ++ items body
  | .initializer _ entries _ body => parameters entries ++ items body
  | .extension type inheritance memberList =>
    [type] ++ names (inheritance.getD []) ++ members memberList
  | .struct _ name inheritance memberList =>
    [name] ++ names (inheritance.getD []) ++ members memberList

def accessors : List (Accessor ItemNode) → List String
  | [] => []
  | ⟨_, parameter, body⟩ :: rest => parameter.toList ++ items body ++ accessors rest

def accessorClause : Option (List (Accessor ItemNode)) → List String
  | none => []
  | some entries => accessors entries

def members : List DeclNode → List String
  | [] => []
  | member :: rest => decl member ++ members rest

def item : ItemNode → List String
  | .decl node => decl node
  | .stmt node => stmt node
  | .expr node => expr node

def items : List ItemNode → List String
  | [] => []
  | entry :: rest => item entry ++ items rest

end

end Leaves

def AllBare (leaves : List String) : Prop := ∀ leaf ∈ leaves, isBare leaf = true

namespace AllBare

@[simp]
theorem nil_iff : AllBare [] ↔ True := by
  simp [AllBare]

@[simp]
theorem cons_iff (leaf : String) (leaves : List String) :
    AllBare (leaf :: leaves) ↔ isBare leaf = true ∧ AllBare leaves :=
  List.forall_mem_cons

@[simp]
theorem append_iff (xs ys : List String) : AllBare (xs ++ ys) ↔ AllBare xs ∧ AllBare ys :=
  List.forall_mem_append

end AllBare

open Command (Nests IsNested nests_nil nests_write nests_text nests_block isNested_intercalate)

-- Clauses of fixed words and leaves show no brace.

theorem nests_comma (follows : Bool) : Nests false (Print.comma follows) := by
  cases follows with
  | true => exact nests_write rfl
  | false => exact nests_nil

theorem nests_names {entries : List (Separated String)} (h : AllBare (Leaves.names entries)) :
    Nests false (Print.names entries) := by
  refine Command.Nests.flatMap fun entry hentry => ?_
  have hname : isBare entry.element = true := h _ (List.mem_map_of_mem hentry)
  exact .cons hname (nests_comma entry.comma)

theorem allBare_keywords {vocabulary : List String} (h : AllBare vocabulary)
    (set : KeywordSet vocabulary) : AllBare set.keywords := by
  intro keyword hkeyword
  obtain ⟨entry, hentry, rfl⟩ := List.mem_map.mp hkeyword
  exact h _ (List.fst_mem_of_mem_zipIdx (List.mem_filter.mp hentry).1)

theorem nests_modifiers (modifiers : Modifiers) : Nests false (Print.modifiers modifiers) := by
  have hbare := allBare_keywords (List.all_eq_true.mp rfl) modifiers
  exact Command.Nests.flatMap fun keyword hkeyword =>
    .cons (hbare keyword hkeyword) (nests_write rfl)

theorem nests_effects (effects : Effects) : Nests false (Print.effects effects) := by
  have hbare := allBare_keywords (List.all_eq_true.mp rfl) effects
  exact Command.Nests.flatMap fun keyword hkeyword =>
    .cons rfl (nests_write (hbare keyword hkeyword))

-- A text that is written only if it is there, behind its mark or in front of it.
theorem nests_marked {mark : String} {clause : Option String → List Command}
    (hmark : isBare mark = true) (hnone : clause none = [])
    (hsome : ∀ text, clause (some text) = [.write mark, .write text] ∨
      clause (some text) = [.write text, .write mark])
    {text : Option String} (h : AllBare text.toList) : Nests false (clause text) := by
  cases text with
  | none =>
      rw [hnone]
      exact nests_nil
  | some text =>
      have htext : isBare text = true := by simpa using h
      rcases hsome text with hclause | hclause
      · rw [hclause]
        exact .cons hmark (nests_write htext)
      · rw [hclause]
        exact .cons htext (nests_write hmark)

theorem nests_parameter {entry : Separated Parameter} (h : AllBare (Leaves.parameters [entry])) :
    Nests false (Print.parameter entry) := by
  simp only [Leaves.parameters, List.flatMap_cons, List.flatMap_nil, List.append_nil,
    AllBare.append_iff, AllBare.cons_iff] at h
  obtain ⟨⟨hlabel, hname, htype, -⟩, hdefault⟩ := h
  have hinout : Nests false (if entry.element.isInout then [.write "inout "] else []) := by
    split
    · exact nests_write rfl
    · exact nests_nil
  have hfront : Nests false (Print.parameterLabel entry.element.label) :=
    nests_marked rfl rfl (fun _ => Or.inr rfl) hlabel
  have hback : Nests false (Print.defaultValue entry.element.defaultValue) :=
    nests_marked rfl rfl (fun _ => Or.inl rfl) hdefault
  exact ((((hfront.append_false (.cons hname (nests_write rfl))).append_false
    hinout).append_false (nests_write htype)).append_false hback).append_false
      (nests_comma entry.comma)

theorem nests_parameters {entries : List (Separated Parameter)}
    (h : AllBare (Leaves.parameters entries)) : Nests false (Print.parameters entries) := by
  have hentries : Nests false (entries.flatMap Print.parameter) := by
    refine Command.Nests.flatMap fun entry hentry => nests_parameter fun leaf hleaf => h leaf ?_
    rw [Leaves.parameters, List.flatMap_cons, List.flatMap_nil, List.append_nil] at hleaf
    exact List.mem_flatMap.mpr ⟨entry, hentry, hleaf⟩
  exact hentries.parenthesized

theorem nests_inheritanceClause {inheritance : Option (List (Separated String))}
    (h : AllBare (Leaves.names (inheritance.getD []))) :
    Nests false (Print.inheritanceClause inheritance) := by
  cases inheritance with
  | none => exact nests_nil
  | some types => exact .cons rfl (nests_names h)

theorem nests_accessorParameter {name : Option String} (h : AllBare name.toList) :
    Nests false (Print.accessorParameter name) := by
  cases name with
  | none => exact nests_nil
  | some name => exact (nests_write (by simpa using h)).parenthesized

-- A closure shows its brace, whatever is in it.
theorem nests_inlineBlock {entries : List (Separated String)} {statements : List (List Command)}
    (hnames : AllBare (Leaves.names entries)) (h : ∀ item ∈ statements, IsNested item) :
    Nests true (Print.inlineBlock entries statements) := by
  have hparameters : Nests false
      (if entries.isEmpty then [] else Print.names entries ++ [.write " in "]) := by
    split
    · exact nests_nil
    · exact (nests_names hnames).append_false (nests_write rfl)
  have hlast : Nests false (if statements.isEmpty then [] else [.write " "]) := by
    split
    · exact nests_nil
    · exact nests_write rfl
  have hstatements : IsNested (List.intercalate [.write "; "] statements) :=
    isNested_intercalate rfl h
  obtain ⟨shows, hinside⟩ := (hparameters.isNested.append hstatements).append hlast.isNested
  have hblank : Nested false " ".toList := nested_of_isBare rfl
  have hall : Nests true (.write (openBrace ++ " ") ::
      ((if entries.isEmpty then [] else Print.names entries ++ [.write " in "]) ++
        List.intercalate [.write "; "] statements ++
        (if statements.isEmpty then [] else [.write " "])) ++ [.write closeBrace]) :=
    hinside.enclosed '{' '}' rfl rfl hblank rfl rfl
  simpa [Print.inlineBlock] using hall

-- Bare leaves leave all brackets to the syntax. An expression then shows a brace exactly if it
-- has to be grouped as a condition, and whatever else is printed is nested in itself.

mutual

theorem nests_expr : (node : ExprNode) → AllBare (Leaves.expr node) →
    Nests node.needsGroupingAsCondition (Print.expr node)
  | .integer text, h => nests_write (by simpa [Leaves.expr] using h)
  | .float text, h => nests_write (by simpa [Leaves.expr] using h)
  | .string value, _ => nests_text (nested_stringLiteral value)
  | .bool true, _ => nests_write rfl
  | .bool false, _ => nests_write rfl
  | .nil, _ => nests_write rfl
  | .reference name, h => nests_write (by simpa [Leaves.expr] using h)
  | .ternary condition thenBranch elseBranch, h => by
      simp only [Leaves.expr, AllBare.append_iff] at h
      obtain ⟨⟨hcondition, hthen⟩, helse⟩ := h
      exact ((((nests_expr condition hcondition).append_false (nests_write rfl)).append
        (nests_expr thenBranch hthen)).append_false (nests_write rfl)).append
          (nests_expr elseBranch helse)
  | .infixOp left operator right, h => by
      simp only [Leaves.expr, AllBare.append_iff, AllBare.cons_iff] at h
      obtain ⟨⟨hleft, hoperator, -⟩, hright⟩ := h
      exact ((nests_expr left hleft).append_false
        (.cons rfl (.cons hoperator (nests_write rfl)))).append (nests_expr right hright)
  | .prefixOp operator operand, h => by
      simp only [Leaves.expr, AllBare.append_iff, AllBare.cons_iff] at h
      exact .cons h.1.1 (nests_expr operand h.2)
  | .member base name, h => by
      simp only [Leaves.expr, AllBare.append_iff, AllBare.cons_iff] at h
      exact (nests_expr base h.1).append_false (.cons rfl (nests_write h.2.1))
  | .call callee arguments trailing, h => by
      simp only [Leaves.expr, AllBare.append_iff] at h
      obtain ⟨⟨hcallee, harguments⟩, htrailing⟩ := h
      have hlist : Nests false (if arguments.isEmpty && trailing.isSome then []
          else .write "(" :: Print.argumentList arguments ++ [.write ")"]) := by
        obtain ⟨shows, hinside⟩ := isNested_argumentList arguments harguments
        split
        · exact nests_nil
        · exact hinside.parenthesized
      have hall := ((nests_expr callee hcallee).append_false hlist).append
        (nests_trailingClosure trailing htrailing)
      rwa [Bool.or_comm] at hall
  | .closure closure, h => nests_closureBody closure h
  | .array elements, h => by
      obtain ⟨shows, hinside⟩ := isNested_elementList elements h
      exact hinside.bracketed
  | .parenthesized inner, h => (nests_expr inner h).parenthesized

theorem isNested_argumentList : (entries : List (Separated (Argument ExprNode))) →
    AllBare (Leaves.argumentList entries) → IsNested (Print.argumentList entries)
  | [], _ => nests_nil.isNested
  | ⟨⟨label, value⟩, follows⟩ :: rest, h => by
      simp only [Leaves.argumentList, AllBare.append_iff] at h
      obtain ⟨⟨hlabel, hvalue⟩, hrest⟩ := h
      have hfront : Nests false (Print.argumentLabel label) :=
        nests_marked rfl rfl (fun _ => Or.inr rfl) hlabel
      exact ((hfront.append (nests_expr value hvalue)).append (nests_comma follows)).isNested.append
        (isNested_argumentList rest hrest)

theorem isNested_elementList : (entries : List (Separated ExprNode)) →
    AllBare (Leaves.elementList entries) → IsNested (Print.elementList entries)
  | [], _ => nests_nil.isNested
  | ⟨value, follows⟩ :: rest, h => by
      simp only [Leaves.elementList, AllBare.append_iff] at h
      exact ((nests_expr value h.1).append (nests_comma follows)).isNested.append
        (isNested_elementList rest h.2)

theorem nests_closureBody : (closure : Closure ItemNode) → AllBare (Leaves.closureBody closure) →
    Nests true (Print.closureBody closure)
  | ⟨entries, statements⟩, h => by
      simp only [Leaves.closureBody, AllBare.append_iff] at h
      exact nests_inlineBlock h.1 (isNested_of_mem_items statements h.2)

theorem nests_trailingClosure : (trailing : Option (Closure ItemNode)) →
    AllBare (Leaves.trailingClosure trailing) →
    Nests trailing.isSome (Print.trailingClosure trailing)
  | none, _ => nests_nil
  | some closure, h => .cons rfl (nests_closureBody closure h)

theorem isNested_stmt : (node : StmtNode) → AllBare (Leaves.stmt node) → IsNested (Print.stmt node)
  | .guard condition body, h => by
      simp only [Leaves.stmt, AllBare.append_iff] at h
      have hblock := nests_block (isNested_of_mem_items body h.2)
      exact (Nests.cons rfl (nests_expr condition h.1)).isNested.append (hblock.cons rfl).isNested
  | .branch condition body elseBody, h => by
      simp only [Leaves.stmt, AllBare.append_iff] at h
      obtain ⟨⟨hcondition, hbody⟩, helse⟩ := h
      have hblock := nests_block (isNested_of_mem_items body hbody)
      exact ((Nests.cons rfl (nests_expr condition hcondition)).append
        (hblock.cons rfl)).isNested.append (isNested_elseClause elseBody helse)
  | .returns none, _ => (nests_write rfl).isNested
  | .returns (some value), h => (Nests.cons rfl (nests_expr value h)).isNested
  | .throws value, h => (Nests.cons rfl (nests_expr value h)).isNested
  | .defer body, h => (Nests.cons rfl (nests_block (isNested_of_mem_items body h))).isNested

theorem isNested_elseClause : (body : Option (List ItemNode)) → AllBare (Leaves.elseItems body) →
    IsNested (Print.elseClause body)
  | none, _ => nests_nil.isNested
  | some body, h => (Nests.cons rfl (nests_block (isNested_of_mem_items body h))).isNested

theorem isNested_decl : (node : DeclNode) → AllBare (Leaves.decl node) → IsNested (Print.decl node)
  | .variable mods binding name type initializer accessorList, h => by
      simp only [Leaves.decl, AllBare.append_iff, AllBare.cons_iff] at h
      obtain ⟨⟨⟨⟨hname, -⟩, htype⟩, hvalue⟩, haccessors⟩ := h
      have hkeyword : isBare binding.keyword = true := by cases binding <;> rfl
      have htypeClause : Nests false (Print.typeClause type) :=
        nests_marked rfl rfl (fun _ => Or.inl rfl) htype
      have hbound : Nests false [.write binding.keyword, .write " ", .write name] :=
        .cons hkeyword (.cons rfl (nests_write hname))
      exact ((((nests_modifiers mods).append hbound).append htypeClause).isNested.append
        (isNested_initialValue initializer hvalue)).append
          (isNested_accessorClause accessorList haccessors)
  | .function mods name params effs returnType body, h => by
      simp only [Leaves.decl, AllBare.append_iff, AllBare.cons_iff] at h
      obtain ⟨⟨⟨⟨hname, -⟩, hparams⟩, htype⟩, hbody⟩ := h
      have hreturns : Nests false (Print.returnClause returnType) :=
        nests_marked rfl rfl (fun _ => Or.inl rfl) htype
      have hblock := nests_block (isNested_of_mem_items body hbody)
      exact (((((nests_modifiers mods).append (.cons rfl (nests_write hname))).append
        (nests_parameters hparams)).append (nests_effects effs)).append hreturns).isNested.append
          (hblock.cons rfl).isNested
  | .initializer mods params effs body, h => by
      simp only [Leaves.decl, AllBare.append_iff] at h
      have hblock := nests_block (isNested_of_mem_items body h.2)
      exact ((((nests_modifiers mods).append (nests_write rfl)).append
        (nests_parameters h.1)).append (nests_effects effs)).isNested.append
          (hblock.cons rfl).isNested
  | .extension type inheritance memberList, h => by
      simp only [Leaves.decl, AllBare.append_iff, AllBare.cons_iff] at h
      obtain ⟨⟨⟨htype, -⟩, hinheritance⟩, hmembers⟩ := h
      have hblock := nests_block (isNested_of_mem_members memberList hmembers)
      have hname : Nests false [.write "extension ", .write type] :=
        .cons rfl (nests_write htype)
      exact (hname.append (nests_inheritanceClause hinheritance)).isNested.append
        (hblock.cons rfl).isNested
  | .struct mods name inheritance memberList, h => by
      simp only [Leaves.decl, AllBare.append_iff, AllBare.cons_iff] at h
      obtain ⟨⟨⟨hname, -⟩, hinheritance⟩, hmembers⟩ := h
      have hblock := nests_block (isNested_of_mem_members memberList hmembers)
      exact (((nests_modifiers mods).append (.cons rfl (nests_write hname))).append
        (nests_inheritanceClause hinheritance)).isNested.append (hblock.cons rfl).isNested

theorem isNested_initialValue : (value : Option ExprNode) → AllBare (Leaves.optionalExpr value) →
    IsNested (Print.initialValue value)
  | none, _ => nests_nil.isNested
  | some value, h => (Nests.cons rfl (nests_expr value h)).isNested

theorem isNested_of_mem_accessors : (entries : List (Accessor ItemNode)) →
    AllBare (Leaves.accessors entries) → ∀ item ∈ Print.accessors entries, IsNested item
  | [], _ => fun _ h => nomatch h
  | ⟨kind, parameter, body⟩ :: rest, h => by
      simp only [Leaves.accessors, AllBare.append_iff] at h
      obtain ⟨⟨hparameter, hbody⟩, hrest⟩ := h
      have hkeyword : isBare (Print.accessorKeyword kind) = true := by cases kind <;> rfl
      have hblock := nests_block (isNested_of_mem_items body hbody)
      have hfirst : IsNested (Print.accessor ⟨kind, parameter, body⟩) :=
        (Nests.cons hkeyword (nests_accessorParameter hparameter)).isNested.append
          (hblock.cons rfl).isNested
      exact List.forall_mem_cons.mpr ⟨hfirst, isNested_of_mem_accessors rest hrest⟩

theorem isNested_accessorClause : (entries : Option (List (Accessor ItemNode))) →
    AllBare (Leaves.accessorClause entries) → IsNested (Print.accessorClause entries)
  | none, _ => nests_nil.isNested
  | some entries, h => (Nests.cons rfl (nests_block (isNested_of_mem_accessors entries h))).isNested

theorem isNested_of_mem_members : (nodes : List DeclNode) → AllBare (Leaves.members nodes) →
    ∀ item ∈ Print.members nodes, IsNested item
  | [], _ => fun _ h => nomatch h
  | member :: rest, h => by
      simp only [Leaves.members, AllBare.append_iff] at h
      exact List.forall_mem_cons.mpr ⟨isNested_decl member h.1, isNested_of_mem_members rest h.2⟩

theorem isNested_item : (node : ItemNode) → AllBare (Leaves.item node) → IsNested (Print.item node)
  | .decl node, h => isNested_decl node h
  | .stmt node, h => isNested_stmt node h
  | .expr node, h => (nests_expr node h).isNested

theorem isNested_of_mem_items : (nodes : List ItemNode) → AllBare (Leaves.items nodes) →
    ∀ item ∈ Print.items nodes, IsNested item
  | [], _ => fun _ h => nomatch h
  | entry :: rest, h => by
      simp only [Leaves.items, AllBare.append_iff] at h
      exact List.forall_mem_cons.mpr ⟨isNested_item entry h.1, isNested_of_mem_items rest h.2⟩

end

end SwiftSource

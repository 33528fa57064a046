import SwiftSource.Proofs.Render.Canonical
import SwiftSource.Proofs.Render.Forgetting
import Mathlib.Data.Set.List

namespace SwiftSource

namespace ExprNode

theorem Canonical.groupIf {node : ExprNode} (p : Position) (h : node.Canonical .whole) :
    (node.groupIf (p.groups node)).Canonical p := by
  unfold ExprNode.groupIf
  split
  · rename_i hgroups
    exact .grouped h hgroups
  · rename_i hgroups
    exact .bare h (by simpa using hgroups)

theorem Canonical.asOperand {node : ExprNode} (h : node.Canonical .whole) :
    node.asOperand.Canonical .operand := h.groupIf .operand

theorem Canonical.asBase {node : ExprNode} (h : node.Canonical .whole) :
    node.asBase.Canonical .base := h.groupIf .base

theorem Canonical.asCondition {node : ExprNode} (h : node.Canonical .whole) :
    node.asCondition.Canonical .condition := h.groupIf .condition

end ExprNode

theorem Double.canonical_node (x : Double) : x.node.Canonical .whole := by
  rcases x.node_cases with ⟨-, hnode⟩ | ⟨-, -, hnode⟩ | ⟨-, -, hnode⟩ | ⟨m, hkind, hnode⟩
  · rw [hnode]
    exact .member "nan" (.bare (.reference "Double") rfl)
  · rw [hnode]
    exact .member "infinity" (.bare (.reference "Double") rfl)
  · rw [hnode]
    exact .negativeInfinity
  · rw [hnode]
    exact .float hkind

theorem Literal.canonical_node (l : Literal) : l.node.Canonical .whole := by
  cases l with
  | int value => exact .integer value
  | double x => exact x.canonical_node
  | string value => exact .string value
  | bool value => exact .bool value
  | nil => exact .nil

variable {α : Type}

theorem Expr.canonical_arguments {arguments : List (Argument (Expr α))}
    (h : ∀ a ∈ arguments, a.value.node.Canonical .whole) :
    ∀ a ∈ separate (arguments.map fun a => Argument.mk a.label a.value.node),
      a.element.value.Canonical .whole := by
  have hnodes : ∀ a ∈ arguments.map (fun a => Argument.mk a.label a.value.node),
      a.value.Canonical .whole := by simpa using h
  exact forall_mem_separate hnodes

theorem Expr.canonical_node (e : Expr α) : e.node.Canonical .whole := by
  induction e using Expr.induction with
  | literal value => exact value.canonical_node
  | reference name payload => exact .reference name
  | conditional condition thenBranch elseBranch hc ht he =>
      exact .ternary hc.asOperand ht.asOperand he.asOperand
  | loop element collection body hc hb => exact .forEach element hc.asBase hb
  | call name arguments ih =>
      rw [node_call]
      exact .call name (commasBetween_separate _) (canonical_arguments ih)
  | method base name arguments hb ih =>
      rw [node_method]
      exact .method name hb.asBase (commasBetween_separate _) (canonical_arguments ih)
  | binary left operator right hl hr => exact .infixOp operator hl.asOperand hr.asOperand
  | property base name hb => exact .member name hb.asBase
  | inline name type initializer ih => exact ih
  | array elements ih =>
      have hnodes : ∀ n ∈ elements.map node, n.Canonical .whole := by simpa using ih
      rw [node_array]
      exact .array (commasBetween_separate _) (forall_mem_separate hnodes)

-- A list whose members are all values of `f` is the image of a list.
theorem exists_map_eq {β γ : Type} {f : β → γ} {ys : List γ} (h : ∀ y ∈ ys, ∃ x, f x = y) :
    ∃ xs : List β, xs.map f = ys := by
  have hrange : ys ∈ Set.range (List.map f) := by
    rw [Set.range_list_map]
    exact h
  exact hrange

theorem Expr.exists_arguments {arguments : List (Separated (Argument ExprNode))}
    (h : ∀ a ∈ arguments, ∃ e : Expr α, e.node = a.element.value) (hc : CommasBetween arguments) :
    ∃ trees : List (Argument (Expr α)),
      separate (trees.map fun a => Argument.mk a.label a.value.node) = arguments := by
  have hvalues : ∀ a ∈ arguments.map Separated.element,
      ∃ tree : Argument (Expr α), Argument.mk tree.label tree.value.node = a := by
    intro a ha
    obtain ⟨entry, hentry, rfl⟩ := List.mem_map.mp ha
    obtain ⟨e, he⟩ := h entry hentry
    exact ⟨⟨entry.element.label, e⟩, by rw [he]⟩
  obtain ⟨trees, htrees⟩ := exists_map_eq hvalues
  exact ⟨trees, by rw [htrees, hc.eq_separate]⟩

theorem Expr.exists_elements {elements : List (Separated ExprNode)}
    (h : ∀ e ∈ elements, ∃ tree : Expr α, tree.node = e.element) (hc : CommasBetween elements) :
    ∃ trees : List (Expr α), separate (trees.map node) = elements := by
  have hvalues : ∀ n ∈ elements.map Separated.element, ∃ tree : Expr α, tree.node = n := by
    simpa using h
  obtain ⟨trees, htrees⟩ := exists_map_eq hvalues
  exact ⟨trees, by rw [htrees, hc.eq_separate]⟩

-- The tree behind a canonical node, whose own node stands in parentheses where the position
-- asks for them.
theorem ExprNode.Canonical.exists_expr [Inhabited α] {p : Position} {node : ExprNode}
    (h : node.Canonical p) : ∃ e : Expr α, e.node.groupIf (p.groups e.node) = node := by
  induction h with
  | bare _ hgroups ih =>
      obtain ⟨e, rfl⟩ := ih
      exact ⟨e, congrArg e.node.groupIf hgroups⟩
  | grouped _ hgroups ih =>
      obtain ⟨e, rfl⟩ := ih
      exact ⟨e, congrArg e.node.groupIf hgroups⟩
  | integer value => exact ⟨.literal (.int value), rfl⟩
  | @float x m hkind => exact ⟨.literal (.double x), Double.node_of_finite hkind⟩
  | string value => exact ⟨.literal (.string value), rfl⟩
  | bool value => exact ⟨.literal (.bool value), rfl⟩
  | nil => exact ⟨.literal .nil, rfl⟩
  | reference name => exact ⟨.variable name default, rfl⟩
  | ternary _ _ _ hc ht he =>
      obtain ⟨c, rfl⟩ := hc
      obtain ⟨t, rfl⟩ := ht
      obtain ⟨e, rfl⟩ := he
      exact ⟨.conditional c t e, rfl⟩
  | infixOp operator _ _ hl hr =>
      obtain ⟨l, rfl⟩ := hl
      obtain ⟨r, rfl⟩ := hr
      exact ⟨.binary l operator r, rfl⟩
  | negativeInfinity =>
      have hkind : Double.negativeInfinity.kind = .infinite := by decide +kernel
      have hsign : Double.negativeInfinity.isNegative = true := by decide +kernel
      exact ⟨.literal (.double .negativeInfinity), Double.node_of_negative_infinity hkind hsign⟩
  | member name _ hb =>
      obtain ⟨b, rfl⟩ := hb
      exact ⟨.property b name, rfl⟩
  | call name hcommas _ ih =>
      obtain ⟨trees, rfl⟩ := Expr.exists_arguments ih hcommas
      exact ⟨.call name trees, Expr.node_call name trees⟩
  | method name _ hcommas _ hb ih =>
      obtain ⟨b, rfl⟩ := hb
      obtain ⟨trees, rfl⟩ := Expr.exists_arguments ih hcommas
      exact ⟨.method b name trees, Expr.node_method b name trees⟩
  | forEach element _ _ hb he =>
      obtain ⟨b, rfl⟩ := hb
      obtain ⟨e, rfl⟩ := he
      exact ⟨.loop element b e, rfl⟩
  | array hcommas _ ih =>
      obtain ⟨trees, rfl⟩ := Expr.exists_elements ih hcommas
      exact ⟨.array trees, Expr.node_array trees⟩

theorem ExprNode.Canonical.exists_option [Inhabited α] {value : Option ExprNode}
    (h : ∀ node ∈ value, node.Canonical .whole) :
    ∃ e : Option (Expr α), e.map Expr.node = value := by
  cases value with
  | none => exact ⟨none, rfl⟩
  | some node =>
      obtain ⟨e, he⟩ := (h node rfl).exists_expr (α := α)
      exact ⟨some e, congrArg some he⟩

theorem Expr.canonical_option (value : Option (Expr α)) :
    ∀ node ∈ value.map Expr.node, node.Canonical .whole := by
  intro node hnode
  obtain ⟨e, _, rfl⟩ := Option.mem_map.mp hnode
  exact e.canonical_node

theorem Stmt.canonical_node (s : Stmt α) : s.node.Canonical := by
  have hlist {body : List (Stmt α)} (h : ∀ s ∈ body, s.node.Canonical) :
      ∀ item ∈ body.map node, item.Canonical := by simpa using h
  induction s using Stmt.induction with
  | bind binding name type initializer =>
      exact .bind binding name type initializer.canonical_node
  | guard condition elseBody ih =>
      rw [node_guard]
      exact .guard condition.canonical_node.asCondition (hlist ih)
  | branch condition thenBody elseBody ht he =>
      have helse : ∀ other ∈ elseBody.map (List.map node), ∀ item ∈ other, item.Canonical := by
        intro other hother
        obtain ⟨body, hbody, rfl⟩ := Option.mem_map.mp hother
        exact hlist (he body hbody)
      rw [node_branch]
      exact .branch condition.canonical_node.asCondition (hlist ht) helse
  | returns value =>
      rw [node_returns]
      exact .returns (Expr.canonical_option value)
  | throws error => exact .throws error.canonical_node
  | defer body ih =>
      rw [node_defer]
      exact .defer (hlist ih)
  | expression value => exact .expression value.canonical_node

theorem Stmt.canonical_map_node (body : List (Stmt α)) :
    ∀ item ∈ body.map node, item.Canonical := by
  intro item hitem
  obtain ⟨s, _, rfl⟩ := List.mem_map.mp hitem
  exact s.canonical_node

theorem ItemNode.Canonical.exists_stmt [Inhabited α] {item : ItemNode} (h : item.Canonical) :
    ∃ s : Stmt α, s.node = item := by
  induction h with
  | bind binding name type hvalue =>
      obtain ⟨e, rfl⟩ := hvalue.exists_expr (α := α)
      exact ⟨.bind binding name type e, rfl⟩
  | guard hcondition _ ih =>
      obtain ⟨c, rfl⟩ := hcondition.exists_expr (α := α)
      obtain ⟨body, rfl⟩ := exists_map_eq ih
      exact ⟨.guard c body, Stmt.node_guard c body⟩
  | @branch _ _ elseBody hcondition _ _ ht he =>
      obtain ⟨c, rfl⟩ := hcondition.exists_expr (α := α)
      obtain ⟨body, rfl⟩ := exists_map_eq ht
      cases elseBody with
      | none => exact ⟨.branch c body none, Stmt.node_branch c body none⟩
      | some other =>
          obtain ⟨other, rfl⟩ := exists_map_eq (he other rfl)
          exact ⟨.branch c body (some other), Stmt.node_branch c body (some other)⟩
  | returns hvalue =>
      obtain ⟨value, rfl⟩ := ExprNode.Canonical.exists_option (α := α) hvalue
      exact ⟨.returns value, Stmt.node_returns value⟩
  | throws hvalue =>
      obtain ⟨e, rfl⟩ := hvalue.exists_expr (α := α)
      exact ⟨.throws e, rfl⟩
  | defer _ ih =>
      obtain ⟨body, rfl⟩ := exists_map_eq ih
      exact ⟨.defer body, Stmt.node_defer body⟩
  | expression hvalue =>
      obtain ⟨e, rfl⟩ := hvalue.exists_expr (α := α)
      exact ⟨.expression e, rfl⟩

theorem ItemNode.Canonical.exists_body [Inhabited α] {body : List ItemNode}
    (h : ∀ item ∈ body, item.Canonical) : ∃ ss : List (Stmt α), ss.map Stmt.node = body :=
  exists_map_eq fun item hitem => (h item hitem).exists_stmt

namespace Modifiers

theorem oneAccess_iff {modifiers : Modifiers} :
    modifiers.OneAccess ↔
      ∃ access isStatic, KeywordSet.union (Access.modifiers access) (ofStatic isStatic) =
        modifiers := by
  constructor
  · intro h
    refine ⟨.ofModifiers modifiers, modifiers.contains (.single "static"), ?_⟩
    obtain ⟨bits⟩ := modifiers
    revert bits
    decide
  · rintro ⟨access, isStatic, rfl⟩
    cases access <;> cases isStatic <;> decide

theorem oneAccess_not_static_iff {modifiers : Modifiers} :
    modifiers.OneAccess ∧ "static" ∉ modifiers.keywords ↔
      ∃ access, Access.modifiers access = modifiers := by
  constructor
  · intro h
    refine ⟨.ofModifiers modifiers, ?_⟩
    obtain ⟨bits⟩ := modifiers
    revert bits
    decide
  · rintro ⟨access, rfl⟩
    cases access <;> decide

theorem only_static_iff {modifiers : Modifiers} :
    (∀ keyword ∈ modifiers.keywords, keyword = "static") ↔
      ∃ isStatic, ofStatic isStatic = modifiers := by
  constructor
  · intro h
    refine ⟨modifiers.contains (.single "static"), ?_⟩
    obtain ⟨bits⟩ := modifiers
    revert bits
    decide
  · rintro ⟨isStatic, rfl⟩
    cases isStatic <;> decide

end Modifiers

namespace Effects

theorem exists_of (effects : Effects) : ∃ isAsync canThrow, of isAsync canThrow = effects := by
  refine ⟨effects.contains (.single "async"), effects.contains (.single "throws"), ?_⟩
  obtain ⟨bits⟩ := effects
  revert bits
  decide

theorem async_notMem_iff {effects : Effects} :
    "async" ∉ effects.keywords ↔ ∃ canThrow, of false canThrow = effects := by
  constructor
  · intro h
    refine ⟨effects.contains (.single "throws"), ?_⟩
    obtain ⟨bits⟩ := effects
    revert bits
    decide
  · rintro ⟨canThrow, rfl⟩
    cases canThrow <;> decide

end Effects

theorem clauseFilled_iff {clause : Option (List (Separated String))} :
    ClauseFilled clause ↔ ∃ conformances, inheritanceClause? conformances = clause := by
  constructor
  · intro h
    cases clause with
    | none => exact ⟨[], rfl⟩
    | some types =>
        obtain ⟨hne, hcommas⟩ := h types rfl
        refine ⟨types.map Separated.element, ?_⟩
        simp [inheritanceClause?, hne, hcommas.eq_separate]
  · rintro ⟨conformances, rfl⟩ types htypes
    cases conformances with
    | nil => simp [inheritanceClause?] at htypes
    | cons first rest =>
        obtain rfl : separate (first :: rest) = types := by
          simpa [inheritanceClause?] using htypes
        refine ⟨?_, commasBetween_separate _⟩
        intro hnil
        simpa using congrArg (List.map Separated.element) hnil

theorem Decl.accessorsCanonical (d : ComputedDecl α) : AccessorsCanonical d.accessors := by
  obtain ⟨name, type, isStatic, getter, setter⟩ := d
  cases setter with
  | none => exact .getter (Stmt.canonical_map_node getter)
  | some setter =>
      exact .getterSetter setter.parameter (Stmt.canonical_map_node getter)
        (Stmt.canonical_map_node setter.body)

theorem AccessorsCanonical.exists_computed [Inhabited α] {accessors : List (Accessor ItemNode)}
    (h : AccessorsCanonical accessors) (name type : String) (isStatic : Bool) :
    ∃ (getter : List (Stmt α)) (setter : Option (Setter α)),
      ComputedDecl.accessors ⟨name, type, isStatic, getter, setter⟩ = accessors := by
  cases h with
  | getter hbody =>
      obtain ⟨getter, rfl⟩ := ItemNode.Canonical.exists_body (α := α) hbody
      exact ⟨getter, none, rfl⟩
  | getterSetter parameter hbody hsetter =>
      obtain ⟨getter, rfl⟩ := ItemNode.Canonical.exists_body (α := α) hbody
      obtain ⟨setter, rfl⟩ := ItemNode.Canonical.exists_body (α := α) hsetter
      exact ⟨getter, some ⟨parameter, setter⟩, rfl⟩

theorem Decl.canonical_node (d : Decl α) : d.node.Canonical := by
  have hlist {members : List (Decl α)} (h : ∀ m ∈ members, m.node.Canonical) :
      ∀ member ∈ members.map node, member.Canonical := by simpa using h
  induction d using Decl.induction with
  | function d =>
      obtain ⟨haccess, hstatic⟩ := Modifiers.oneAccess_not_static_iff.mpr ⟨d.access, rfl⟩
      rw [node_function]
      exact .function d.name _ d.returnType haccess hstatic (commasBetween_separate _)
        (Stmt.canonical_map_node d.body)
  | property d =>
      rw [node_property]
      exact .property d.binding d.name d.type (Modifiers.oneAccess_iff.mpr ⟨_, _, rfl⟩)
        (Expr.canonical_option d.initializer)
  | computed d =>
      rw [node_computed]
      exact .computed d.name d.type (Modifiers.only_static_iff.mpr ⟨_, rfl⟩)
        (Decl.accessorsCanonical d)
  | extension d ih =>
      rw [node_extension]
      exact .extension d.type (clauseFilled_iff.mpr ⟨_, rfl⟩) (hlist ih)
  | struct d ih =>
      obtain ⟨haccess, hstatic⟩ := Modifiers.oneAccess_not_static_iff.mpr ⟨d.access, rfl⟩
      rw [node_struct]
      exact .struct d.name haccess hstatic (clauseFilled_iff.mpr ⟨_, rfl⟩) (hlist ih)
  | initializer d =>
      obtain ⟨haccess, hstatic⟩ := Modifiers.oneAccess_not_static_iff.mpr ⟨d.access, rfl⟩
      rw [node_initializer]
      exact .initializer haccess hstatic (commasBetween_separate _)
        (Effects.async_notMem_iff.mpr ⟨_, rfl⟩) (Stmt.canonical_map_node d.body)

theorem DeclNode.Canonical.exists_decl [Inhabited α] {decl : DeclNode} (h : decl.Canonical) :
    ∃ d : Decl α, d.node = decl := by
  induction h with
  | property binding name type haccess hvalue =>
      obtain ⟨access, isStatic, rfl⟩ := Modifiers.oneAccess_iff.mp haccess
      obtain ⟨value, rfl⟩ := ExprNode.Canonical.exists_option (α := α) hvalue
      exact ⟨.property ⟨access, name, type, isStatic, binding, value⟩, Decl.node_property _⟩
  | computed name type hstatic haccessors =>
      obtain ⟨isStatic, rfl⟩ := Modifiers.only_static_iff.mp hstatic
      obtain ⟨getter, setter, rfl⟩ := haccessors.exists_computed (α := α) name type isStatic
      exact ⟨.computed ⟨name, type, isStatic, getter, setter⟩, Decl.node_computed _⟩
  | function name effects returnType haccess hstatic hcommas hbody =>
      obtain ⟨access, rfl⟩ := Modifiers.oneAccess_not_static_iff.mp ⟨haccess, hstatic⟩
      obtain ⟨isAsync, canThrow, rfl⟩ := Effects.exists_of effects
      obtain ⟨parameters, rfl⟩ := hcommas.exists_separate
      obtain ⟨body, rfl⟩ := ItemNode.Canonical.exists_body (α := α) hbody
      exact ⟨.function ⟨access, name, parameters, isAsync, canThrow, returnType, body⟩,
        Decl.node_function _⟩
  | initializer haccess hstatic hcommas hasync hbody =>
      obtain ⟨access, rfl⟩ := Modifiers.oneAccess_not_static_iff.mp ⟨haccess, hstatic⟩
      obtain ⟨canThrow, rfl⟩ := Effects.async_notMem_iff.mp hasync
      obtain ⟨parameters, rfl⟩ := hcommas.exists_separate
      obtain ⟨body, rfl⟩ := ItemNode.Canonical.exists_body (α := α) hbody
      exact ⟨.initializer ⟨access, parameters, canThrow, body⟩, Decl.node_initializer _⟩
  | extension type hclause _ ih =>
      obtain ⟨conformances, rfl⟩ := clauseFilled_iff.mp hclause
      obtain ⟨members, rfl⟩ := exists_map_eq ih
      exact ⟨.extension ⟨type, conformances, members⟩, Decl.node_extension _⟩
  | struct name haccess hstatic hclause _ ih =>
      obtain ⟨access, rfl⟩ := Modifiers.oneAccess_not_static_iff.mp ⟨haccess, hstatic⟩
      obtain ⟨conformances, rfl⟩ := clauseFilled_iff.mp hclause
      obtain ⟨members, rfl⟩ := exists_map_eq ih
      exact ⟨.struct ⟨access, name, conformances, members⟩, Decl.node_struct _⟩

-- The nodes that some tree is rendered to are exactly those of the grammar.
theorem rendered_iff_canonical [Inhabited α] :
    (∀ node : ExprNode, (∃ e : Expr α, e.node = node) ↔ node.Canonical .whole) ∧
    (∀ item : ItemNode, (∃ s : Stmt α, s.node = item) ↔ item.Canonical) ∧
    (∀ decl : DeclNode, (∃ d : Decl α, d.node = decl) ↔ decl.Canonical) := by
  refine ⟨fun node => ⟨?_, fun h => h.exists_expr⟩, fun item => ⟨?_, fun h => h.exists_stmt⟩,
    fun decl => ⟨?_, fun h => h.exists_decl⟩⟩
  · rintro ⟨e, rfl⟩
    exact e.canonical_node
  · rintro ⟨s, rfl⟩
    exact s.canonical_node
  · rintro ⟨d, rfl⟩
    exact d.canonical_node

end SwiftSource

import SwiftSource.Proofs.Node.Declared
import SwiftSource.Proofs.Render.Node
import SwiftSource.Proofs.Tree.Induction
import SwiftSource.Proofs.Tree.Outline
import SwiftSource.Validation

namespace SwiftSource

variable {α : Type}

-- The property that a problem is about.
def Problem.property : Problem → String
  | .untypedProperty name => name

-- An expression declares nothing: the only closures in it run expressions.

theorem Double.declared_node (x : Double) : Declared.expr x.node = [] := by
  rcases x.node_cases with ⟨-, hnode⟩ | ⟨-, -, hnode⟩ | ⟨-, -, hnode⟩ | ⟨m, -, hnode⟩
  all_goals
    rw [hnode]
    rfl

theorem Literal.declared_node (value : Literal) : Declared.expr value.node = [] := by
  cases value with
  | double x => exact x.declared_node
  | int value => rfl
  | string value => rfl
  | bool value => rfl
  | nil => rfl

theorem Expr.declared_node (e : Expr α) : Declared.expr e.node = [] := by
  induction e using Expr.induction with
  | literal value => exact value.declared_node
  | reference name payload => rfl
  | conditional condition thenBranch elseBranch hc ht he =>
      simp [ExprNode.asOperand, hc, ht, he]
  | loop element collection body hc hb =>
      -- the closure holds one expression and no declaration
      simp [ExprNode.forEach, ExprNode.asBase, Declared.argumentList, Declared.items, hc, hb]
  | call name arguments ih => simpa using ih
  | method base name arguments hb ih => simpa [ExprNode.asBase, hb] using ih
  | binary left operator right hl hr => simp [ExprNode.asOperand, hl, hr]
  | property base name ih => simp [ExprNode.asBase, ih]
  | inline name type initializer ih => simpa using ih
  | array elements ih => simpa using ih

theorem Expr.declared_option (value : Option (Expr α)) :
    Declared.optionalExpr (value.map Expr.node) = [] := by
  cases value with
  | none => rfl
  | some value => exact value.declared_node

-- What a body declares is never bare: a binding has a value.

namespace Stmt

private theorem bareName?_items {body : List (Stmt α)}
    (h : ∀ s ∈ body, (Declared.item s.node).filterMap DeclNode.bareName? = []) :
    (Declared.items (body.map node)).filterMap DeclNode.bareName? = [] := by
  rw [Declared.items_eq, List.filterMap_flatMap, List.flatMap_map, List.flatMap_eq_nil_iff]
  exact h

theorem bareName?_node (s : Stmt α) :
    (Declared.item s.node).filterMap DeclNode.bareName? = [] := by
  induction s using Stmt.induction with
  | bind binding name type initializer =>
      simp [initializer.declared_node, DeclNode.bareName?]
  | guard condition elseBody ih =>
      simp [ExprNode.asCondition, condition.declared_node, bareName?_items ih]
  | branch condition thenBody elseBody ht he =>
      cases elseBody with
      | none =>
          simp [ExprNode.asCondition, condition.declared_node,
            bareName?_items ht]
      | some elseBody =>
          simp [ExprNode.asCondition, condition.declared_node,
            bareName?_items ht, bareName?_items (he elseBody rfl)]
  | returns value => simp [-Declared.optionalExpr, Expr.declared_option]
  | throws error => simp [error.declared_node]
  | defer body ih => simp [bareName?_items ih]
  | expression value => simp [value.declared_node]

theorem bareName?_body (body : List (Stmt α)) :
    (Declared.items (body.map node)).filterMap DeclNode.bareName? = [] :=
  bareName?_items fun s _ => s.bareName?_node

end Stmt

-- A body has no problems either: they are all about properties.

theorem Expr.collect_problem? (e : Expr α) : e.outline.collect Fragment.problem? = [] := by
  induction e using Expr.induction with
  | literal value => rfl
  | reference name payload => rfl
  | conditional condition thenBranch elseBranch hc ht he =>
      rw [outline_conditional, Outline.collect_of_none rfl]
      simp [hc, ht, he]
  | loop element collection body hc hb =>
      rw [outline_loop, Outline.collect_of_none rfl]
      simp [hc, hb]
  | call name arguments ih =>
      rw [outline_call, Outline.collect_of_none rfl]
      simpa using ih
  | method base name arguments hb ih =>
      rw [outline_method, Outline.collect_of_none rfl]
      simpa [hb] using ih
  | binary left operator right hl hr =>
      rw [outline_binary, Outline.collect_of_none rfl]
      simp [hl, hr]
  | property base name ih =>
      rw [outline_property, Outline.collect_of_none rfl]
      simpa using ih
  | inline name type initializer ih =>
      rw [outline_inline, Outline.collect_of_none rfl]
      simpa using ih
  | array elements ih =>
      rw [outline_array, Outline.collect_of_none rfl]
      simpa using ih

theorem Stmt.collect_problem? (s : Stmt α) : s.outline.collect Fragment.problem? = [] := by
  induction s using Stmt.induction with
  | bind binding name type initializer =>
      rw [outline_bind, Outline.collect_of_none rfl]
      simp [initializer.collect_problem?]
  | guard condition elseBody ih =>
      rw [outline_guard, Outline.collect_of_none rfl]
      simpa [condition.collect_problem?] using ih
  | branch condition thenBody elseBody ht he =>
      rw [outline_branch, Outline.collect_of_none rfl]
      cases elseBody with
      | none => simpa [condition.collect_problem?] using ht
      | some elseBody =>
          simpa [condition.collect_problem?] using ⟨ht, he elseBody rfl⟩
  | returns value =>
      rw [outline_returns, Outline.collect_of_none rfl]
      simp [Expr.collect_problem?]
  | throws error =>
      rw [outline_throws, Outline.collect_of_none rfl]
      simp [error.collect_problem?]
  | defer body ih =>
      rw [outline_defer, Outline.collect_of_none rfl]
      simpa using ih
  | expression value =>
      rw [outline_expression, Outline.collect_of_none rfl]
      simp [value.collect_problem?]

namespace Decl

theorem problems_eq (d : Decl α) : d.problems = d.outline.collect Fragment.problem? := rfl

@[simp]
theorem problems_function (d : FunctionDecl α) : (Decl.function d).problems = [] := by
  rw [problems_eq, outline_function, Outline.collect_of_none rfl]
  simp [Stmt.collect_problem?]

@[simp]
theorem problems_property (d : PropertyDecl α) :
    (Decl.property d).problems =
      if d.isUntyped then [.untypedProperty d.name] else [] := by
  rw [problems_eq, outline_property]
  by_cases hbare : d.isUntyped = true
  · have hpick : (Fragment.decl (.property d)).problem? = some (.untypedProperty d.name) :=
      if_pos hbare
    rw [Outline.collect_of_some hpick, if_pos hbare]
    simp [Expr.collect_problem?]
  · have hpick : (Fragment.decl (.property d)).problem? = none := if_neg hbare
    rw [Outline.collect_of_none hpick, if_neg hbare]
    simp [Expr.collect_problem?]

@[simp]
theorem problems_computed (d : ComputedDecl α) : (Decl.computed d).problems = [] := by
  rw [problems_eq, outline_computed, Outline.collect_of_none rfl]
  simp [Stmt.collect_problem?]

@[simp]
theorem problems_extension (d : ExtensionDecl (Decl α)) :
    (Decl.extension d).problems = d.members.flatMap problems := by
  rw [problems_eq, outline_extension, Outline.collect_of_none rfl, List.flatMap_map]
  rfl

@[simp]
theorem problems_struct (d : StructDecl (Decl α)) :
    (Decl.struct d).problems = d.members.flatMap problems := by
  rw [problems_eq, outline_struct, Outline.collect_of_none rfl, List.flatMap_map]
  rfl

@[simp]
theorem problems_initializer (d : InitializerDecl α) : (Decl.initializer d).problems = [] := by
  rw [problems_eq, outline_initializer, Outline.collect_of_none rfl]
  simp [Stmt.collect_problem?]

-- The problems of a declaration are the bare variables of its node.
theorem bareName?_node (d : Decl α) :
    (Declared.decl d.node).filterMap DeclNode.bareName? = d.problems.map Problem.property := by
  have hmembers {members : List (Decl α)}
      (h : ∀ m ∈ members, (Declared.decl m.node).filterMap DeclNode.bareName? =
        m.problems.map Problem.property) :
      ((members.map node).flatMap Declared.decl).filterMap DeclNode.bareName? =
        (members.flatMap problems).map Problem.property := by
    rw [List.filterMap_flatMap, List.flatMap_map, List.map_flatMap]
    exact List.flatMap_congr h
  induction d using Decl.induction with
  | function d =>
      rw [node_function, Declared.decl, List.filterMap_cons_none rfl, Stmt.bareName?_body,
        problems_function, List.map_nil]
  | property d =>
      obtain ⟨access, name, type, isStatic, binding, initializer⟩ := d
      rw [node_property, Declared.decl, Expr.declared_option, problems_property]
      cases type with
      | none => cases initializer <;> rfl
      | some type => rfl
  | computed d =>
      obtain ⟨name, type, isStatic, getter, setter⟩ := d
      rw [node_computed, Declared.decl, List.filterMap_cons_none rfl, problems_computed]
      cases setter with
      | none => simp [ComputedDecl.accessors, Stmt.bareName?_body]
      | some setter => simp [ComputedDecl.accessors, Stmt.bareName?_body]
  | extension d ih =>
      rw [node_extension, Declared.decl, List.filterMap_cons_none rfl, Declared.members_eq,
        problems_extension, hmembers ih]
  | struct d ih =>
      rw [node_struct, Declared.decl, List.filterMap_cons_none rfl, Declared.members_eq,
        problems_struct, hmembers ih]
  | initializer d =>
      rw [node_initializer, Declared.decl, List.filterMap_cons_none rfl, Stmt.bareName?_body,
        problems_initializer, List.map_nil]

theorem bareNames_node (ds : List (Decl α)) :
    bareNames (ds.map node) = (problemsList ds).map Problem.property := by
  rw [bareNames, Declared.members_eq, List.filterMap_flatMap, List.flatMap_map, problemsList,
    List.map_flatMap]
  exact List.flatMap_congr fun d _ => d.bareName?_node

end Decl

-- What is reported about a list of declarations.
def reported : Except (List Problem) Unit → List Problem
  | .ok _ => []
  | .error problems => problems

namespace Decl

theorem validateList_of_nil {ds : List (Decl α)} (h : problemsList ds = []) :
    validateList ds = .ok () := by
  rw [validateList, h]

theorem validateList_of_cons {ds : List (Decl α)} {problem : Problem} {rest : List Problem}
    (h : problemsList ds = problem :: rest) : validateList ds = .error (problem :: rest) := by
  rw [validateList, h]

theorem reported_validateList (ds : List (Decl α)) :
    reported (validateList ds) = problemsList ds := by
  cases h : problemsList ds with
  | nil => rw [validateList_of_nil h, reported]
  | cons problem rest => rw [validateList_of_cons h, reported]

theorem validateList_eq_ok_iff {ds : List (Decl α)} :
    validateList ds = .ok () ↔ problemsList ds = [] := by
  constructor
  · intro hok
    rw [← reported_validateList, hok, reported]
  · exact validateList_of_nil

theorem problemsList_singleton (d : Decl α) : problemsList [d] = d.problems := by
  rw [problemsList, List.flatMap_singleton]

end Decl

-- Validation reports exactly the variables that the rendered declarations leave bare, in source
-- order, however deep they are. A single declaration is judged by the first of them.
theorem validation_reports_bare_variables :
    (∀ ds : List (Decl α),
      (reported (Decl.validateList ds)).map Problem.property = bareNames (ds.map Decl.node)) ∧
    (∀ ds : List (Decl α),
      Decl.validateList ds = .ok () ↔ bareNames (ds.map Decl.node) = []) ∧
    (∀ d : Decl α, d.validate = .ok () ↔ Decl.validateList [d] = .ok ()) ∧
    (∀ (d : Decl α) (problem : Problem), d.validate = .error problem ↔
      (reported (Decl.validateList [d])).head? = some problem) ∧
    (∀ ds ds' : List (Decl α), reported (Decl.validateList (ds ++ ds')) =
      reported (Decl.validateList ds) ++ reported (Decl.validateList ds')) := by
  refine ⟨fun ds => ?_, fun ds => ?_, fun d => ?_, fun d problem => ?_, fun ds ds' => ?_⟩
  · rw [Decl.reported_validateList, Decl.bareNames_node]
  · rw [Decl.validateList_eq_ok_iff, Decl.bareNames_node, List.map_eq_nil_iff]
  · rw [Decl.validateList_eq_ok_iff, Decl.problemsList_singleton, Decl.validate]
    cases d.problems <;> simp
  · rw [Decl.reported_validateList, Decl.problemsList_singleton, Decl.validate]
    cases d.problems <;> simp
  · rw [Decl.reported_validateList, Decl.reported_validateList, Decl.reported_validateList,
      Decl.problemsList, List.flatMap_append]
    rfl

end SwiftSource

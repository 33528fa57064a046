import SwiftSource.Render.Source

namespace SwiftSource

namespace Double

variable {x : Double} {m : Magnitude}

theorem node_of_nan (h : x.kind = .nan) : x.node = .member (.reference "Double") "nan" := by
  simp only [Double.node, h]

theorem node_of_infinity (h : x.kind = .infinite) (hsign : x.isNegative = false) :
    x.node = .member (.reference "Double") "infinity" := by
  simp [Double.node, h, hsign]

theorem node_of_negative_infinity (h : x.kind = .infinite) (hsign : x.isNegative = true) :
    x.node = .prefixOp "-" (.member (.reference "Double") "infinity") := by
  simp [Double.node, h, hsign]

theorem node_of_finite (h : x.kind = .finite m) :
    x.node = .float (signedNumeral x.isNegative m) := by
  simp only [Double.node, h]

-- The forms that the node of a double has.
theorem node_cases (x : Double) :
    (x.kind = .nan ∧ x.node = .member (.reference "Double") "nan") ∨
    (x.kind = .infinite ∧ x.isNegative = false ∧
      x.node = .member (.reference "Double") "infinity") ∨
    (x.kind = .infinite ∧ x.isNegative = true ∧
      x.node = .prefixOp "-" (.member (.reference "Double") "infinity")) ∨
    ∃ m, x.kind = .finite m ∧ x.node = .float (signedNumeral x.isNegative m) := by
  cases hkind : x.kind with
  | nan => exact Or.inl ⟨rfl, node_of_nan hkind⟩
  | infinite =>
      cases hsign : x.isNegative with
      | false => exact Or.inr (Or.inl ⟨rfl, rfl, node_of_infinity hkind hsign⟩)
      | true => exact Or.inr (Or.inr (Or.inl ⟨rfl, rfl, node_of_negative_infinity hkind hsign⟩))
  | finite m => exact Or.inr (Or.inr (Or.inr ⟨m, rfl, node_of_finite hkind⟩))

end Double

variable {α : Type}

@[simp]
theorem Expr.value_renderOption (value : Option (Expr α)) :
    (Expr.renderOption value).value = value.map Expr.node := by
  cases value with
  | none => rfl
  | some value => rfl

namespace Stmt

@[simp]
theorem value_renderList (body : List (Stmt α)) : (renderList body).value = body.map node := by
  induction body with
  | nil => rfl
  | cons s rest ih =>
    have hcons : (renderList (s :: rest)).value = s.node :: (renderList rest).value := rfl
    rw [hcons, ih, List.map_cons]

@[simp]
theorem value_renderOption (body : Option (List (Stmt α))) :
    (renderOption body).value = body.map (List.map node) := by
  cases body with
  | none => rfl
  | some body =>
    have hsome : (renderOption (some body)).value = some (renderList body).value := rfl
    rw [hsome, value_renderList, Option.map_some]

@[simp]
theorem node_bind (binding : Binding) (name : String) (type : Option String)
    (initializer : Expr α) :
    (Stmt.bind binding name type initializer).node =
      .decl (.variable .empty binding name type (some initializer.node) none) := rfl

@[simp]
theorem node_guard (condition : Expr α) (elseBody : List (Stmt α)) :
    (Stmt.guard condition elseBody).node =
      .stmt (.guard condition.node.asCondition (elseBody.map node)) := by
  rw [← value_renderList]
  rfl

@[simp]
theorem node_branch (condition : Expr α) (thenBody : List (Stmt α))
    (elseBody : Option (List (Stmt α))) :
    (Stmt.branch condition thenBody elseBody).node =
      .stmt (.branch condition.node.asCondition (thenBody.map node)
        (elseBody.map (List.map node))) := by
  rw [← value_renderList, ← value_renderOption]
  rfl

@[simp]
theorem node_returns (value : Option (Expr α)) :
    (Stmt.returns value).node = .stmt (.returns (value.map Expr.node)) := by
  rw [← Expr.value_renderOption]
  rfl

@[simp]
theorem node_throws (error : Expr α) :
    (Stmt.throws error).node = .stmt (.throws error.node) := rfl

@[simp]
theorem node_defer (body : List (Stmt α)) :
    (Stmt.defer body).node = .stmt (.defer (body.map node)) := by
  rw [← value_renderList]
  rfl

@[simp]
theorem node_expression (value : Expr α) :
    (Stmt.expression value).node = .expr value.node := rfl

end Stmt

-- The accessors of a computed property.
def ComputedDecl.accessors (d : ComputedDecl α) : List (Accessor ItemNode) :=
  ⟨.get, none, d.getter.map Stmt.node⟩ ::
    (d.setter.map fun setter =>
      ⟨.set, some setter.parameter, setter.body.map Stmt.node⟩).toList

namespace Decl

@[simp]
theorem value_renderList (members : List (Decl α)) :
    (renderList members).value = members.map node := by
  induction members with
  | nil => rfl
  | cons d rest ih =>
    have hcons : (renderList (d :: rest)).value = d.node :: (renderList rest).value := rfl
    rw [hcons, ih, List.map_cons]

@[simp]
theorem node_function (d : FunctionDecl α) :
    (Decl.function d).node =
      .function d.access.modifiers d.name (separate d.parameters)
        (Effects.of d.isAsync d.canThrow) d.returnType (d.body.map Stmt.node) := by
  rw [← Stmt.value_renderList]
  rfl

@[simp]
theorem node_property (d : PropertyDecl α) :
    (Decl.property d).node =
      .variable (d.access.modifiers.union (Modifiers.ofStatic d.isStatic)) d.binding d.name d.type
        (d.initializer.map Expr.node) none := by
  rw [← Expr.value_renderOption]
  rfl

@[simp]
theorem node_computed (d : ComputedDecl α) :
    (Decl.computed d).node =
      .variable (Modifiers.ofStatic d.isStatic) .variable d.name (some d.type) none
        (some d.accessors) := by
  obtain ⟨name, type, isStatic, getter, setter⟩ := d
  cases setter with
  | none =>
    simp only [ComputedDecl.accessors]
    rw [← Stmt.value_renderList]
    rfl
  | some setter =>
    simp only [ComputedDecl.accessors, Option.map_some]
    rw [← Stmt.value_renderList, ← Stmt.value_renderList]
    rfl

@[simp]
theorem node_extension (d : ExtensionDecl (Decl α)) :
    (Decl.extension d).node =
      .extension d.type (inheritanceClause? d.conformances) (d.members.map node) := by
  rw [← value_renderList]
  rfl

@[simp]
theorem node_struct (d : StructDecl (Decl α)) :
    (Decl.struct d).node =
      .struct d.access.modifiers d.name (inheritanceClause? d.conformances)
        (d.members.map node) := by
  rw [← value_renderList]
  rfl

@[simp]
theorem node_initializer (d : InitializerDecl α) :
    (Decl.initializer d).node =
      .initializer d.access.modifiers (separate d.parameters) (Effects.of false d.canThrow)
        (d.body.map Stmt.node) := by
  rw [← Stmt.value_renderList]
  rfl

end Decl

namespace Source

@[simp]
theorem passage_stmts (ss : List (Stmt α)) :
    (Source.stmts ss).passage = .items (ss.map Stmt.node) := by
  rw [← Stmt.value_renderList]
  rfl

@[simp]
theorem passage_decls (ds : List (Decl α)) :
    (Source.decls ds).passage = .items (ds.map fun d => .decl d.node) := by
  have h : (Source.decls ds).passage = .items ((Decl.renderList ds).value.map .decl) := rfl
  rw [h, Decl.value_renderList, List.map_map]
  rfl

end Source

end SwiftSource

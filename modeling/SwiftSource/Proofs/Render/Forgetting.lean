import SwiftSource.Proofs.Render.Reading

namespace SwiftSource

namespace ItemNode

mutual

-- The statement behind an item.
def read : ItemNode → Stmt Unit
  | .decl (.variable _ binding name type (some initializer) _) =>
    .bind binding name type initializer.read
  | .decl _ => .returns none
  | .stmt (.guard condition body) => .guard condition.read (readList body)
  | .stmt (.branch condition body elseBody) =>
    .branch condition.read (readList body) (readOption elseBody)
  | .stmt (.returns value) => .returns (value.map ExprNode.read)
  | .stmt (.throws value) => .throws value.read
  | .stmt (.defer body) => .defer (readList body)
  | .expr value => .expression value.read

def readList : List ItemNode → List (Stmt Unit)
  | [] => []
  | item :: rest => item.read :: readList rest

def readOption : Option (List ItemNode) → Option (List (Stmt Unit))
  | none => none
  | some body => some (readList body)

end

@[simp]
theorem readList_eq (items : List ItemNode) : readList items = items.map read := by
  induction items with
  | nil => rfl
  | cons item rest ih => rw [readList, ih, List.map_cons]

@[simp]
theorem readOption_eq (body : Option (List ItemNode)) :
    readOption body = body.map (List.map read) := by
  cases body with
  | none => rfl
  | some body => rw [readOption, readList_eq, Option.map_some]

end ItemNode

variable {α : Type}

namespace Stmt

theorem read_node (s : Stmt α) : s.node.read = s.norm := by
  have hlist {body : List (Stmt α)} (h : ∀ s ∈ body, s.node.read = s.norm) :
      body.map (fun s => s.node.read) = body.map norm := List.map_congr_left h
  induction s using Stmt.induction with
  | bind binding name type initializer =>
      simp [ItemNode.read, norm, initializer.read_node]
  | guard condition elseBody ih =>
      simp [ItemNode.read, norm, condition.read_node, Function.comp_def, hlist ih]
  | branch condition thenBody elseBody ht he =>
      cases elseBody with
      | none => simp [ItemNode.read, norm, condition.read_node, Function.comp_def, hlist ht]
      | some elseBody =>
          have helse := hlist (he elseBody rfl)
          simp [ItemNode.read, norm, condition.read_node, Function.comp_def, hlist ht, helse]
  | returns value =>
      cases value with
      | none => rfl
      | some value => simp [ItemNode.read, norm, value.read_node]
  | throws error => simp [ItemNode.read, norm, error.read_node]
  | defer body ih => simp [ItemNode.read, norm, Function.comp_def, hlist ih]
  | expression value => simp [ItemNode.read, norm, value.read_node]

theorem node_norm (s : Stmt α) : s.norm.node = s.node := by
  have hlist {body : List (Stmt α)} (h : ∀ s ∈ body, s.norm.node = s.node) :
      body.map (fun s => s.norm.node) = body.map node := List.map_congr_left h
  induction s using Stmt.induction with
  | bind binding name type initializer => simp [norm, initializer.node_norm]
  | guard condition elseBody ih =>
      simp [norm, condition.node_norm, Function.comp_def, hlist ih]
  | branch condition thenBody elseBody ht he =>
      cases elseBody with
      | none => simp [norm, condition.node_norm, Function.comp_def, hlist ht]
      | some elseBody =>
          have helse := hlist (he elseBody rfl)
          simp [norm, condition.node_norm, Function.comp_def, hlist ht, helse]
  | returns value =>
      cases value with
      | none => rfl
      | some value => simp [norm, value.node_norm]
  | throws error => simp [norm, error.node_norm]
  | defer body ih => simp [norm, Function.comp_def, hlist ih]
  | expression value => simp [norm, value.node_norm]

theorem map_read_node (body : List (Stmt α)) :
    (body.map node).map ItemNode.read = body.map norm := by
  rw [List.map_map]
  exact List.map_congr_left fun s _ => s.read_node

theorem map_node_norm (body : List (Stmt α)) : (body.map norm).map node = body.map node := by
  rw [List.map_map]
  exact List.map_congr_left fun s _ => s.node_norm

end Stmt

-- At most one access keyword stands in a set of modifiers.
def Access.ofModifiers (modifiers : Modifiers) : Access :=
  if modifiers.contains (.single "public") then .everyone
  else if modifiers.contains (.single "fileprivate") then .file
  else if modifiers.contains (.single "private") then .scope
  else .internal

@[simp]
theorem Access.ofModifiers_modifiers (access : Access) :
    Access.ofModifiers access.modifiers = access := by
  cases access <;> decide

@[simp]
theorem Access.ofModifiers_union (access : Access) (isStatic : Bool) :
    Access.ofModifiers (access.modifiers.union (Modifiers.ofStatic isStatic)) = access := by
  cases access <;> cases isStatic <;> decide

@[simp]
theorem Modifiers.contains_static_union (access : Access) (isStatic : Bool) :
    (access.modifiers.union (Modifiers.ofStatic isStatic)).contains (.single "static") =
      isStatic := by
  cases access <;> cases isStatic <;> decide

@[simp]
theorem Modifiers.contains_static (isStatic : Bool) :
    (Modifiers.ofStatic isStatic).contains (.single "static") = isStatic := by
  cases isStatic <;> decide

@[simp]
theorem Effects.contains_async (isAsync canThrow : Bool) :
    (Effects.of isAsync canThrow).contains (.single "async") = isAsync := by
  cases isAsync <;> cases canThrow <;> decide

@[simp]
theorem Effects.contains_throws (isAsync canThrow : Bool) :
    (Effects.of isAsync canThrow).contains (.single "throws") = canThrow := by
  cases isAsync <;> cases canThrow <;> decide

-- The types of an optional clause.
def readClause (clause : Option (List (Separated String))) : List String :=
  (clause.getD []).map Separated.element

@[simp]
theorem readClause_inheritanceClause? (conformances : List String) :
    readClause (inheritanceClause? conformances) = conformances := by
  cases conformances with
  | nil => rfl
  | cons first rest => simp [readClause, inheritanceClause?]

-- The setter among the accessors behind the getter.
def readSetter : List (Accessor ItemNode) → Option (Setter Unit)
  | ⟨.set, some parameter, body⟩ :: _ => some ⟨parameter, body.map ItemNode.read⟩
  | _ => none

namespace DeclNode

mutual

def read : DeclNode → Decl Unit
  | .variable modifiers binding name type value none =>
    .property ⟨.ofModifiers modifiers, name, type, modifiers.contains (.single "static"), binding,
      value.map ExprNode.read⟩
  | .variable modifiers _ name type _ (some accessors) =>
    .computed ⟨name, type.getD "", modifiers.contains (.single "static"),
      (accessors.headD ⟨.get, none, []⟩).body.map ItemNode.read, readSetter accessors.tail⟩
  | .function modifiers name parameters effects returnType body =>
    .function ⟨.ofModifiers modifiers, name, parameters.map Separated.element,
      effects.contains (.single "async"), effects.contains (.single "throws"), returnType,
      body.map ItemNode.read⟩
  | .initializer modifiers parameters effects body =>
    .initializer ⟨.ofModifiers modifiers, parameters.map Separated.element,
      effects.contains (.single "throws"), body.map ItemNode.read⟩
  | .extension type inheritance members =>
    .extension ⟨type, readClause inheritance, readList members⟩
  | .struct modifiers name inheritance members =>
    .struct ⟨.ofModifiers modifiers, name, readClause inheritance, readList members⟩

def readList : List DeclNode → List (Decl Unit)
  | [] => []
  | member :: rest => member.read :: readList rest

end

@[simp]
theorem readList_eq (members : List DeclNode) : readList members = members.map read := by
  induction members with
  | nil => rfl
  | cons member rest ih => rw [readList, ih, List.map_cons]

end DeclNode

namespace Decl

theorem read_node (d : Decl α) : d.node.read = d.norm := by
  induction d using Decl.induction with
  | function d =>
      simp only [node_function, DeclNode.read, norm, FunctionDecl.norm, Stmt.map_read_node,
        Access.ofModifiers_modifiers, map_element_separate, Effects.contains_async,
        Effects.contains_throws]
  | property d =>
      obtain ⟨access, name, type, isStatic, binding, initializer⟩ := d
      cases initializer with
      | none => simp [DeclNode.read, norm, PropertyDecl.norm]
      | some initializer =>
          simp [DeclNode.read, norm, PropertyDecl.norm, initializer.read_node]
  | computed d =>
      obtain ⟨name, type, isStatic, getter, setter⟩ := d
      have hgetter := Stmt.map_read_node getter
      cases setter with
      | none =>
          simp [DeclNode.read, norm, ComputedDecl.norm, ComputedDecl.accessors, readSetter,
            -List.map_map, hgetter]
      | some setter =>
          have hsetter := Stmt.map_read_node setter.body
          simp [DeclNode.read, norm, ComputedDecl.norm, Setter.norm, ComputedDecl.accessors,
            readSetter, -List.map_map, hgetter, hsetter]
  | extension d ih =>
      have hmembers : d.members.map (fun m => m.node.read) = d.members.map norm :=
        List.map_congr_left ih
      simp [DeclNode.read, norm, Function.comp_def, hmembers]
  | struct d ih =>
      have hmembers : d.members.map (fun m => m.node.read) = d.members.map norm :=
        List.map_congr_left ih
      simp [DeclNode.read, norm, Function.comp_def, hmembers]
  | initializer d =>
      simp only [node_initializer, DeclNode.read, norm, InitializerDecl.norm, Stmt.map_read_node,
        Access.ofModifiers_modifiers, map_element_separate, Effects.contains_throws]

theorem node_norm (d : Decl α) : d.norm.node = d.node := by
  induction d using Decl.induction with
  | function d => simp only [norm, node_function, FunctionDecl.norm, Stmt.map_node_norm]
  | property d =>
      obtain ⟨access, name, type, isStatic, binding, initializer⟩ := d
      cases initializer with
      | none => simp [norm, PropertyDecl.norm]
      | some initializer => simp [norm, PropertyDecl.norm, initializer.node_norm]
  | computed d =>
      obtain ⟨name, type, isStatic, getter, setter⟩ := d
      have hgetter := Stmt.map_node_norm getter
      cases setter with
      | none => simp [norm, ComputedDecl.norm, ComputedDecl.accessors, -List.map_map, hgetter]
      | some setter =>
          have hsetter := Stmt.map_node_norm setter.body
          simp [norm, ComputedDecl.norm, Setter.norm, ComputedDecl.accessors, -List.map_map,
            hgetter, hsetter]
  | extension d ih =>
      have hmembers : d.members.map (fun m => m.norm.node) = d.members.map node :=
        List.map_congr_left ih
      simp [norm, Function.comp_def, hmembers]
  | struct d ih =>
      have hmembers : d.members.map (fun m => m.norm.node) = d.members.map node :=
        List.map_congr_left ih
      simp [norm, Function.comp_def, hmembers]
  | initializer d => simp only [norm, node_initializer, InitializerDecl.norm, Stmt.map_node_norm]

end Decl

variable {β : Type}

theorem Expr.node_eq_iff {a : Expr α} {b : Expr β} : a.node = b.node ↔ a.norm = b.norm := by
  constructor
  · intro h
    rw [← a.read_node, ← b.read_node, h]
  · intro h
    rw [← a.node_norm, ← b.node_norm, h]

theorem Stmt.node_eq_iff {a : Stmt α} {b : Stmt β} : a.node = b.node ↔ a.norm = b.norm := by
  constructor
  · intro h
    rw [← a.read_node, ← b.read_node, h]
  · intro h
    rw [← a.node_norm, ← b.node_norm, h]

theorem Decl.node_eq_iff {a : Decl α} {b : Decl β} : a.node = b.node ↔ a.norm = b.norm := by
  constructor
  · intro h
    rw [← a.read_node, ← b.read_node, h]
  · intro h
    rw [← a.node_norm, ← b.node_norm, h]

-- Two lists agree under one pair of maps exactly when they agree under the other, if that is
-- so for their elements.
private theorem map_eq_map_iff {γ δ : Type} {f : α → γ} {f' : β → γ} {g : α → δ} {g' : β → δ}
    (h : ∀ a b, f a = f' b ↔ g a = g' b) (as : List α) (bs : List β) :
    as.map f = bs.map f' ↔ as.map g = bs.map g' := by
  induction as generalizing bs with
  | nil => cases bs <;> simp
  | cons a as ih =>
      cases bs with
      | nil => simp
      | cons b bs => simp [h a b, ih bs]

theorem Stmt.map_node_eq_iff {as : List (Stmt α)} {bs : List (Stmt β)} :
    as.map Stmt.node = bs.map Stmt.node ↔ as.map Stmt.norm = bs.map Stmt.norm :=
  map_eq_map_iff (fun _ _ => Stmt.node_eq_iff) as bs

-- Declarations are printed as items.
theorem Decl.map_item_eq_iff {as : List (Decl α)} {bs : List (Decl β)} :
    (as.map fun d => ItemNode.decl d.node) = (bs.map fun d => .decl d.node) ↔
      as.map Decl.norm = bs.map Decl.norm := by
  refine map_eq_map_iff (fun a b => ?_) as bs
  rw [ItemNode.decl.injEq]
  exact Decl.node_eq_iff

-- Rendering forgets the payloads, the inline declarations and which doubles have no literal,
-- and nothing else, whatever the names and texts in the trees are.
theorem rendering_forgets_exactly :
    (∀ (a : Expr α) (b : Expr β), a.node = b.node ↔ a.norm = b.norm) ∧
    (∀ (a : Stmt α) (b : Stmt β), a.node = b.node ↔ a.norm = b.norm) ∧
    (∀ (a : Decl α) (b : Decl β), a.node = b.node ↔ a.norm = b.norm) ∧
    (∀ (as : List (Stmt α)) (bs : List (Stmt β)),
      (Source.stmts as).passage = (Source.stmts bs).passage ↔
        as.map Stmt.norm = bs.map Stmt.norm) ∧
    (∀ (as : List (Decl α)) (bs : List (Decl β)),
      (Source.decls as).passage = (Source.decls bs).passage ↔
        as.map Decl.norm = bs.map Decl.norm) := by
  refine ⟨fun _ _ => Expr.node_eq_iff, fun _ _ => Stmt.node_eq_iff, fun _ _ => Decl.node_eq_iff,
    fun as bs => ?_, fun as bs => ?_⟩
  · rw [Source.passage_stmts, Source.passage_stmts, Passage.items.injEq]
    exact Stmt.map_node_eq_iff
  · rw [Source.passage_decls, Source.passage_decls, Passage.items.injEq]
    exact Decl.map_item_eq_iff

end SwiftSource

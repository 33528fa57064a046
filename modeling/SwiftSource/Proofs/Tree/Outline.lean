import Mathlib.Data.List.Basic
import SwiftSource.Tree.Fragment

namespace SwiftSource

namespace Outline

variable {β γ : Type}

@[elab_as_elim]
theorem induction {motive : Outline β → Prop}
    (entry : ∀ head parts, (∀ part ∈ parts, motive part) → motive (.entry head parts))
    (o : Outline β) : motive o :=
  @Outline.rec β motive (fun parts => ∀ part ∈ parts, motive part) entry (by simp)
    (fun _ _ hpart hparts => List.forall_mem_cons.mpr ⟨hpart, hparts⟩) o

@[simp]
theorem visitsList_eq (stop : β → Bool) (depth : Nat) (parts : List (Outline β)) :
    visitsList stop depth parts = parts.flatMap (visits stop depth) := by
  induction parts with
  | nil => rfl
  | cons part rest ih => rw [visitsList, ih, List.flatMap_cons]

-- What is visited does not depend on where the visit starts.
theorem map_snd_visits (stop : β → Bool) (o : Outline β) (depth depth' : Nat) :
    (o.visits stop depth).map Prod.snd = (o.visits stop depth').map Prod.snd := by
  induction o using Outline.induction generalizing depth depth' with
  | entry head parts ih =>
      rw [visits, visits, List.map_cons, List.map_cons]
      by_cases hstop : stop head = true
      · rw [if_pos hstop, if_pos hstop]
      · rw [if_neg hstop, if_neg hstop, visitsList_eq, visitsList_eq, List.map_flatMap,
          List.map_flatMap]
        have hparts := List.flatMap_congr fun part hpart =>
          ih part hpart (depth + 1) (depth' + 1)
        rw [hparts]

@[simp]
theorem heads_entry (head : β) (parts : List (Outline β)) :
    (Outline.entry head parts).heads = head :: parts.flatMap heads := by
  have hparts : parts.flatMap (fun part => (part.visits (fun _ => false) 1).map Prod.snd) =
      parts.flatMap heads :=
    List.flatMap_congr fun part _ => map_snd_visits _ part 1 0
  rw [heads, visits, if_neg Bool.false_ne_true, visitsList_eq, List.map_cons, List.map_flatMap,
    hparts]

-- What `pick` finds at the headings, in order.
def collect (pick : β → Option γ) (o : Outline β) : List γ :=
  o.heads.filterMap pick

theorem collect_of_none {pick : β → Option γ} {head : β} (h : pick head = none)
    (parts : List (Outline β)) :
    (Outline.entry head parts).collect pick = parts.flatMap (collect pick) := by
  rw [collect, heads_entry, List.filterMap_cons_none h, List.filterMap_flatMap]
  rfl

theorem collect_of_some {pick : β → Option γ} {head : β} {c : γ} (h : pick head = some c)
    (parts : List (Outline β)) :
    (Outline.entry head parts).collect pick = c :: parts.flatMap (collect pick) := by
  rw [collect, heads_entry, List.filterMap_cons_some h, List.filterMap_flatMap]
  rfl

mutual

def map (f : β → γ) : Outline β → Outline γ
  | .entry head parts => .entry (f head) (mapList f parts)

def mapList (f : β → γ) : List (Outline β) → List (Outline γ)
  | [] => []
  | part :: rest => part.map f :: mapList f rest

end

@[simp]
theorem mapList_eq (f : β → γ) (parts : List (Outline β)) :
    mapList f parts = parts.map (map f) := by
  induction parts with
  | nil => rfl
  | cons part rest ih => rw [mapList, ih, List.map_cons]

theorem visits_map (f : β → γ) (stop : γ → Bool) (o : Outline β) (depth : Nat) :
    (o.map f).visits stop depth =
      (o.visits (fun head => stop (f head)) depth).map fun v => (v.1, f v.2) := by
  induction o using Outline.induction generalizing depth with
  | entry head parts ih =>
      rw [map, visits, visits, List.map_cons, mapList_eq]
      by_cases hstop : stop (f head) = true
      · rw [if_pos hstop, if_pos hstop]
        rfl
      · rw [if_neg hstop, if_neg hstop, visitsList_eq, visitsList_eq, List.flatMap_map,
          List.map_flatMap]
        have hparts := List.flatMap_congr fun part hpart => ih part hpart (depth + 1)
        rw [hparts]

theorem visitsList_parts_map (f : β → γ) (stop : γ → Bool) (o : Outline β) (depth : Nat) :
    visitsList stop depth (o.map f).parts =
      (visitsList (fun head => stop (f head)) depth o.parts).map fun v => (v.1, f v.2) := by
  obtain ⟨head, parts⟩ := o
  rw [map, Outline.parts, Outline.parts, mapList_eq, visitsList_eq, visitsList_eq,
    List.flatMap_map, List.map_flatMap]
  exact List.flatMap_congr fun part _ => visits_map f stop part depth

theorem heads_map (f : β → γ) (o : Outline β) : (o.map f).heads = o.heads.map f := by
  rw [heads, heads, visits_map, List.map_map, List.map_map]
  rfl

end Outline

variable {α : Type}

-- The outline of a tree is built from those of its parts.

namespace Expr

theorem outline_conditional (condition thenBranch elseBranch : Expr α) :
    (Expr.conditional condition thenBranch elseBranch).outline =
      .entry (.expr (.conditional condition thenBranch elseBranch))
        [condition.outline, thenBranch.outline, elseBranch.outline] := rfl

theorem outline_loop (element : String) (collection body : Expr α) :
    (Expr.loop element collection body).outline =
      .entry (.expr (.loop element collection body)) [collection.outline, body.outline] := rfl

theorem argumentParts_eq (arguments : List (Argument (Expr α))) :
    argumentParts arguments = arguments.map fun a => a.value.outline := by
  induction arguments with
  | nil => rfl
  | cons a rest ih =>
    rw [argumentParts, ih, List.map_cons]
    rfl

theorem outline_call (name : String) (arguments : List (Argument (Expr α))) :
    (Expr.call name arguments).outline =
      .entry (.expr (.call name arguments)) (arguments.map fun a => a.value.outline) := by
  rw [← argumentParts_eq]
  rfl

theorem outline_method (base : Expr α) (name : String) (arguments : List (Argument (Expr α))) :
    (Expr.method base name arguments).outline =
      .entry (.expr (.method base name arguments))
        (base.outline :: arguments.map fun a => a.value.outline) := by
  rw [← argumentParts_eq]
  rfl

theorem outline_binary (left : Expr α) (operator : String) (right : Expr α) :
    (Expr.binary left operator right).outline =
      .entry (.expr (.binary left operator right)) [left.outline, right.outline] := rfl

theorem outline_property (base : Expr α) (name : String) :
    (Expr.property base name).outline =
      .entry (.expr (.property base name)) [base.outline] := rfl

theorem outline_inline (name : String) (type : Option String) (initializer : Expr α) :
    (Expr.inline name type initializer).outline =
      .entry (.expr (.inline name type initializer)) [initializer.outline] := rfl

theorem elementParts_eq (elements : List (Expr α)) :
    elementParts elements = elements.map outline := by
  induction elements with
  | nil => rfl
  | cons e rest ih =>
    rw [elementParts, ih, List.map_cons]
    rfl

theorem outline_array (elements : List (Expr α)) :
    (Expr.array elements).outline = .entry (.expr (.array elements)) (elements.map outline) := by
  rw [← elementParts_eq]
  rfl

end Expr

namespace Stmt

theorem outline_bind (binding : Binding) (name : String) (type : Option String)
    (initializer : Expr α) :
    (Stmt.bind binding name type initializer).outline =
      .entry (.stmt (.bind binding name type initializer)) [initializer.outline] := rfl

theorem bodyParts_eq (body : List (Stmt α)) : bodyParts body = body.map outline := by
  induction body with
  | nil => rfl
  | cons s rest ih =>
    rw [bodyParts, ih, List.map_cons]
    rfl

theorem outline_guard (condition : Expr α) (elseBody : List (Stmt α)) :
    (Stmt.guard condition elseBody).outline =
      .entry (.stmt (.guard condition elseBody)) (condition.outline :: elseBody.map outline) := by
  rw [← bodyParts_eq]
  rfl

theorem outline_branch (condition : Expr α) (thenBody : List (Stmt α))
    (elseBody : Option (List (Stmt α))) :
    (Stmt.branch condition thenBody elseBody).outline =
      .entry (.stmt (.branch condition thenBody elseBody))
        (condition.outline :: (thenBody.map outline ++ (elseBody.getD []).map outline)) := by
  rw [← bodyParts_eq, ← bodyParts_eq]
  cases elseBody with
  | none => rfl
  | some elseBody => rfl

theorem outline_returns (value : Option (Expr α)) :
    (Stmt.returns value).outline =
      .entry (.stmt (.returns value)) (value.toList.map Expr.outline) := rfl

theorem outline_throws (error : Expr α) :
    (Stmt.throws error).outline = .entry (.stmt (.throws error)) [error.outline] := rfl

theorem outline_defer (body : List (Stmt α)) :
    (Stmt.defer body).outline = .entry (.stmt (.defer body)) (body.map outline) := by
  rw [← bodyParts_eq]
  rfl

theorem outline_expression (value : Expr α) :
    (Stmt.expression value).outline = .entry (.stmt (.expression value)) [value.outline] := rfl

end Stmt

-- The statements that run when a property is set.
def ComputedDecl.setterBody (d : ComputedDecl α) : List (Stmt α) :=
  (d.setter.map Setter.body).getD []

namespace Decl

theorem outline_function (d : FunctionDecl α) :
    (Decl.function d).outline = .entry (.decl (.function d)) (d.body.map Stmt.outline) := by
  rw [← Stmt.bodyParts_eq]
  rfl

theorem outline_property (d : PropertyDecl α) :
    (Decl.property d).outline =
      .entry (.decl (.property d)) (d.initializer.toList.map Expr.outline) := rfl

theorem outline_computed (d : ComputedDecl α) :
    (Decl.computed d).outline =
      .entry (.decl (.computed d))
        (d.getter.map Stmt.outline ++ d.setterBody.map Stmt.outline) := by
  obtain ⟨name, type, isStatic, getter, setter⟩ := d
  rw [← Stmt.bodyParts_eq, ← Stmt.bodyParts_eq]
  cases setter with
  | none => rfl
  | some setter => rfl

theorem memberParts_eq (members : List (Decl α)) :
    memberParts members = members.map outline := by
  induction members with
  | nil => rfl
  | cons d rest ih =>
    rw [memberParts, ih, List.map_cons]
    rfl

theorem outline_extension (d : ExtensionDecl (Decl α)) :
    (Decl.extension d).outline = .entry (.decl (.extension d)) (d.members.map outline) := by
  rw [← memberParts_eq]
  rfl

theorem outline_struct (d : StructDecl (Decl α)) :
    (Decl.struct d).outline = .entry (.decl (.struct d)) (d.members.map outline) := by
  rw [← memberParts_eq]
  rfl

theorem outline_initializer (d : InitializerDecl α) :
    (Decl.initializer d).outline =
      .entry (.decl (.initializer d)) (d.body.map Stmt.outline) := by
  rw [← Stmt.bodyParts_eq]
  rfl

end Decl

end SwiftSource

import SwiftSource.Proofs.Tree.Relabelling
import SwiftSource.Render.Source
import SwiftSource.Validation

namespace SwiftSource

variable {α β σ : Type}

-- A tree and its shape are rendered alike, and the same is noticed on the way.

namespace Expr

theorem renderArguments_shape {arguments : List (Argument (Expr α))}
    (h : ∀ a ∈ arguments, a.value.shape.render = a.value.render) :
    renderArguments (arguments.map fun a => ⟨a.label, a.value.shape⟩) =
      renderArguments arguments := by
  induction arguments with
  | nil => rfl
  | cons a rest ih =>
      obtain ⟨ha, hrest⟩ := List.forall_mem_cons.mp h
      rw [List.map_cons, renderArguments, renderArguments, ha, ih hrest]

theorem renderElements_shape {elements : List (Expr α)}
    (h : ∀ e ∈ elements, e.shape.render = e.render) :
    renderElements (elements.map shape) = renderElements elements := by
  induction elements with
  | nil => rfl
  | cons e rest ih =>
      obtain ⟨he, hrest⟩ := List.forall_mem_cons.mp h
      rw [List.map_cons, renderElements, renderElements, he, ih hrest]

theorem render_shape (e : Expr α) : e.shape.render = e.render := by
  induction e using Expr.induction with
  | literal value => rfl
  | reference name payload => rfl
  | conditional condition thenBranch elseBranch hc ht he =>
      rw [shape_conditional, render, render, hc, ht, he]
  | loop element collection body hc hb => rw [shape_loop, render, render, hc, hb]
  | call name arguments ih => rw [shape_call, render, render, renderArguments_shape ih]
  | method base name arguments hb ih =>
      rw [shape_method, render, render, hb, renderArguments_shape ih]
  | binary left operator right hl hr => rw [shape_binary, render, render, hl, hr]
  | property base name ih => rw [shape_property, render, render, ih]
  | inline name type initializer ih => rw [shape_inline, render, render, ih]
  | array elements ih => rw [shape_array, render, render, renderElements_shape ih]

theorem renderOption_shape (value : Option (Expr α)) :
    renderOption (value.map shape) = renderOption value := by
  cases value with
  | none => rfl
  | some value => rw [Option.map_some, renderOption, renderOption, value.render_shape]

end Expr

namespace Stmt

private theorem renderBody_shape {body : List (Stmt α)}
    (h : ∀ stmt ∈ body, stmt.shape.render = stmt.render) :
    renderList (body.map shape) = renderList body := by
  induction body with
  | nil => rfl
  | cons stmt rest ih =>
      obtain ⟨hstmt, hrest⟩ := List.forall_mem_cons.mp h
      rw [List.map_cons, renderList, renderList, hstmt, ih hrest]

theorem render_shape (stmt : Stmt α) : stmt.shape.render = stmt.render := by
  induction stmt using Stmt.induction with
  | bind binding name type initializer =>
      rw [shape_bind, render, render, initializer.render_shape]
  | guard condition elseBody ih =>
      rw [shape_guard, render, render, condition.render_shape, renderBody_shape ih]
  | branch condition thenBody elseBody ht he =>
      rw [shape_branch, render, render, condition.render_shape, renderBody_shape ht]
      cases elseBody with
      | none => rfl
      | some elseBody =>
          rw [Option.map_some, renderOption, renderOption, renderBody_shape (he elseBody rfl)]
  | returns value => rw [shape_returns, render, render, Expr.renderOption_shape]
  | throws error => rw [shape_throws, render, render, error.render_shape]
  | defer body ih => rw [shape_defer, render, render, renderBody_shape ih]
  | expression value => rw [shape_expression, render, render, value.render_shape]

theorem renderList_shape (body : List (Stmt α)) :
    renderList (body.map shape) = renderList body :=
  renderBody_shape fun stmt _ => stmt.render_shape

end Stmt

namespace Decl

theorem name?_shape (d : Decl α) : d.shape.name? = d.name? := by
  cases d <;> rfl

theorem renderSetter_shape (setter : Option (Setter α)) :
    renderSetter (setter.map Setter.shape) = renderSetter setter := by
  cases setter with
  | none => rfl
  | some setter =>
      rw [Option.map_some, renderSetter, renderSetter, Setter.shape, Stmt.renderList_shape]

private theorem renderMembers_shape {members : List (Decl α)}
    (h : ∀ m ∈ members, m.shape.renderBody = m.renderBody) :
    renderList (members.map shape) = renderList members := by
  induction members with
  | nil => rfl
  | cons m rest ih =>
      obtain ⟨hm, hrest⟩ := List.forall_mem_cons.mp h
      rw [List.map_cons, renderList, renderList, hm, ih hrest, name?_shape]

theorem renderBody_shape (d : Decl α) : d.shape.renderBody = d.renderBody := by
  induction d using Decl.induction with
  | function d =>
      rw [shape_function, renderBody, renderBody, renderFunction, renderFunction,
        Stmt.renderList_shape]
  | property d =>
      rw [shape_property, renderBody, renderBody, renderProperty, renderProperty,
        Expr.renderOption_shape]
  | computed d =>
      rw [shape_computed, renderBody, renderBody, renderComputed, renderComputed,
        Stmt.renderList_shape, renderSetter_shape]
  | extension d ih => rw [shape_extension, renderBody, renderBody, renderMembers_shape ih]
  | struct d ih => rw [shape_struct, renderBody, renderBody, renderMembers_shape ih]
  | initializer d =>
      rw [shape_initializer, renderBody, renderBody, renderInitializer, renderInitializer,
        Stmt.renderList_shape]

theorem render_shape (d : Decl α) : d.shape.render = d.render := by
  rw [render, render, name?_shape, renderBody_shape]

theorem renderList_shape (ds : List (Decl α)) : renderList (ds.map shape) = renderList ds :=
  renderMembers_shape fun d _ => d.renderBody_shape

end Decl

-- A visitor meets the shapes of the fragments that it meets in the tree itself.

theorem Expr.outline_shape (e : Expr α) : e.shape.outline = e.outline.map Fragment.shape := by
  have harguments {arguments : List (Argument (Expr α))}
      (h : ∀ a ∈ arguments, a.value.shape.outline = a.value.outline.map Fragment.shape) :
      arguments.map (fun a => a.value.shape.outline) =
        arguments.map fun a => a.value.outline.map Fragment.shape := List.map_congr_left h
  induction e using Expr.induction with
  | literal value => rfl
  | reference name payload => rfl
  | conditional condition thenBranch elseBranch hc ht he =>
      simp [outline_conditional, Outline.map, hc, ht, he]
  | loop element collection body hc hb => simp [outline_loop, Outline.map, hc, hb]
  | call name arguments ih =>
      simp [outline_call, Outline.map, Function.comp_def, harguments ih]
  | method base name arguments hb ih =>
      simp [outline_method, Outline.map, Function.comp_def, hb, harguments ih]
  | binary left operator right hl hr => simp [outline_binary, Outline.map, hl, hr]
  | property base name ih => simp [outline_property, Outline.map, ih]
  | inline name type initializer ih => simp [outline_inline, Outline.map, ih]
  | array elements ih =>
      have helements : elements.map (fun e => e.shape.outline) =
          elements.map fun e => e.outline.map Fragment.shape := List.map_congr_left ih
      simp [outline_array, Outline.map, Function.comp_def, helements]

theorem Expr.map_outline_shape (value : Option (Expr α)) :
    (value.map shape).toList.map outline =
      (value.toList.map outline).map (Outline.map Fragment.shape) := by
  cases value with
  | none => rfl
  | some value => simp [value.outline_shape]

theorem Stmt.outline_shape (stmt : Stmt α) :
    stmt.shape.outline = stmt.outline.map Fragment.shape := by
  have hbody {body : List (Stmt α)}
      (h : ∀ stmt ∈ body, stmt.shape.outline = stmt.outline.map Fragment.shape) :
      body.map (fun stmt => stmt.shape.outline) =
        body.map fun stmt => stmt.outline.map Fragment.shape := List.map_congr_left h
  induction stmt using Stmt.induction with
  | bind binding name type initializer =>
      simp [outline_bind, Outline.map, initializer.outline_shape]
  | guard condition elseBody ih =>
      simp [outline_guard, Outline.map, condition.outline_shape, Function.comp_def, hbody ih]
  | branch condition thenBody elseBody ht he =>
      cases elseBody with
      | none =>
          simp [outline_branch, Outline.map, condition.outline_shape, Function.comp_def, hbody ht]
      | some elseBody =>
          simp [outline_branch, Outline.map, condition.outline_shape, Function.comp_def, hbody ht,
            hbody (he elseBody rfl)]
  | returns value => simp [outline_returns, Outline.map, Expr.map_outline_shape]
  | throws error => simp [outline_throws, Outline.map, error.outline_shape]
  | defer body ih => simp [outline_defer, Outline.map, Function.comp_def, hbody ih]
  | expression value => simp [outline_expression, Outline.map, value.outline_shape]

theorem Stmt.map_outline_shape (body : List (Stmt α)) :
    (body.map shape).map outline = (body.map outline).map (Outline.map Fragment.shape) := by
  rw [List.map_map, List.map_map]
  exact List.map_congr_left fun stmt _ => stmt.outline_shape

theorem Decl.outline_shape (d : Decl α) : d.shape.outline = d.outline.map Fragment.shape := by
  have hmembers {members : List (Decl α)}
      (h : ∀ m ∈ members, m.shape.outline = m.outline.map Fragment.shape) :
      members.map (fun m => m.shape.outline) =
        members.map fun m => m.outline.map Fragment.shape := List.map_congr_left h
  induction d using Decl.induction with
  | function d =>
      simp [outline_function, Outline.map, -List.map_map, Stmt.map_outline_shape]
  | property d => simp [outline_property, Outline.map, Expr.map_outline_shape]
  | computed d =>
      obtain ⟨name, type, isStatic, getter, setter⟩ := d
      cases setter with
      | none =>
          simp [outline_computed, Outline.map, ComputedDecl.setterBody, -List.map_map,
            Stmt.map_outline_shape]
      | some setter =>
          simp [outline_computed, Outline.map, ComputedDecl.setterBody, Setter.shape,
            -List.map_map, Stmt.map_outline_shape]
  | extension d ih => simp [outline_extension, Outline.map, Function.comp_def, hmembers ih]
  | struct d ih => simp [outline_struct, Outline.map, Function.comp_def, hmembers ih]
  | initializer d =>
      simp [outline_initializer, Outline.map, -List.map_map, Stmt.map_outline_shape]

namespace Fragment

theorem outline_shape (t : Fragment α) : t.shape.outline = t.outline.map shape := by
  cases t with
  | expr e => exact e.outline_shape
  | stmt stmt => exact stmt.outline_shape
  | decl d => exact d.outline_shape

-- What a visitor may look at is in the shape.

theorem kind_shape (t : Fragment α) : t.shape.kind = t.kind := by
  cases t with
  | expr e => cases e <;> rfl
  | stmt stmt =>
      cases stmt with
      | bind binding name type initializer => cases binding <;> rfl
      | _ => rfl
  | decl d => cases d <;> rfl

theorem label_shape (t : Fragment α) : t.shape.label = t.label := by
  cases t with
  | expr e => cases e <;> rfl
  | stmt stmt => cases stmt <;> rfl
  | decl d => cases d <;> rfl

theorem name?_shape (t : Fragment α) : t.shape.name? = t.name? := by
  cases t with
  | expr e => rfl
  | stmt stmt => rfl
  | decl d => exact d.name?_shape

theorem problem?_shape (t : Fragment α) : t.shape.problem? = t.problem? := by
  cases t with
  | expr e => rfl
  | stmt stmt => rfl
  | decl d =>
      cases d with
      | property d => simp [problem?, PropertyDecl.isUntyped]
      | _ => rfl

theorem listing_shape (cut : List String) (t : Fragment α) :
    t.shape.listing cut = t.listing cut := by
  simp only [listing, outline_shape, Outline.visits_map, List.map_map, Function.comp_def,
    kind_shape, label_shape]

theorem partsListing_shape (cut : List String) (t : Fragment α) :
    t.shape.partsListing cut = t.partsListing cut := by
  simp only [partsListing, outline_shape, Outline.visitsList_parts_map, List.map_map,
    Function.comp_def, kind_shape, label_shape]

end Fragment

namespace Decl

theorem problems_shape (d : Decl α) : d.shape.problems = d.problems := by
  rw [problems, problems, outline_shape, Outline.heads_map, List.filterMap_map]
  exact List.filterMap_congr fun t _ => t.problem?_shape

theorem validate_shape (d : Decl α) : d.shape.validate = d.validate := by
  rw [validate, validate, problems_shape]

theorem validateList_shape (ds : List (Decl α)) :
    validateList (ds.map shape) = validateList ds := by
  have hproblems : problemsList (ds.map shape) = problemsList ds := by
    rw [problemsList, problemsList, List.flatMap_map]
    exact List.flatMap_congr fun d _ => d.problems_shape
  rw [validateList, validateList, hproblems]

end Decl

theorem Fragment.render_shape (t : Fragment α) : t.shape.source.render = t.source.render := by
  cases t with
  | expr e => rw [shape_expr, source, source, Source.render, Source.render, e.render_shape]
  | stmt stmt =>
      rw [shape_stmt, source, source, Source.render, Source.render, stmt.render_shape]
  | decl d => rw [shape_decl, source, source, Source.render, Source.render, d.render_shape]

theorem Stmt.render_stmts_shape (ss : List (Stmt α)) :
    (Source.stmts (ss.map shape)).render = (Source.stmts ss).render := by
  rw [Source.render, Source.render, renderList_shape]

theorem Decl.render_decls_shape (ds : List (Decl α)) :
    (Source.decls (ds.map shape)).render = (Source.decls ds).render := by
  rw [Source.render, Source.render, renderList_shape]

-- Nodes, events and texts are all that rendering gives.
theorem Source.outputs_of_render_eq {a : Source α} {b : Source β} (h : a.render = b.render) :
    a.passage = b.passage ∧ a.render.events = b.render.events ∧ ∀ o, a.text o = b.text o := by
  have hpassage : a.passage = b.passage := by rw [passage, passage, h]
  refine ⟨hpassage, by rw [h], fun o => ?_⟩
  rw [text, text, hpassage]

-- Trees that differ only in their payloads cannot be told apart: they render to the same nodes
-- and texts with the same events on the way, have the same names and problems, and a visitor
-- reports the same of them. Relabelled trees are such trees.
theorem payloads_unobservable :
    (∀ (a : Fragment α) (b : Fragment β), a.shape = b.shape →
      a.source.passage = b.source.passage ∧ a.source.render.events = b.source.render.events ∧
        (∀ o, a.source.text o = b.source.text o) ∧ a.name? = b.name? ∧
        ∀ cut, a.listing cut = b.listing cut ∧ a.partsListing cut = b.partsListing cut) ∧
    (∀ (a : Decl α) (b : Decl β), a.shape = b.shape →
      a.name? = b.name? ∧ a.validate = b.validate) ∧
    (∀ (as : List (Decl α)) (bs : List (Decl β)), as.map Decl.shape = bs.map Decl.shape →
      (Source.decls as).passage = (Source.decls bs).passage ∧
        (Source.decls as).render.events = (Source.decls bs).render.events ∧
        (∀ o, Decl.textList o as = Decl.textList o bs) ∧
        Decl.validateList as = Decl.validateList bs) ∧
    (∀ (as : List (Stmt α)) (bs : List (Stmt β)), as.map Stmt.shape = bs.map Stmt.shape →
      (Source.stmts as).passage = (Source.stmts bs).passage ∧
        (Source.stmts as).render.events = (Source.stmts bs).render.events ∧
        ∀ o, Stmt.textList o as = Stmt.textList o bs) ∧
    (∀ (t : Fragment α) (f : σ → α → β × σ) (s : σ),
      (t.mapAccum f s).1.shape = t.shape ∧
        ((t.traverse (stateful f)).run s).1.shape = t.shape) := by
  refine ⟨fun a b h => ?_, fun a b h => ?_, fun as bs h => ?_, fun as bs h => ?_,
    fun t f s => ⟨t.shape_mapAccum f s, ?_⟩⟩
  · have hrender : a.source.render = b.source.render := by
      rw [← a.render_shape, h, b.render_shape]
    obtain ⟨hpassage, hevents, htext⟩ := Source.outputs_of_render_eq hrender
    refine ⟨hpassage, hevents, htext, ?_, fun cut => ⟨?_, ?_⟩⟩
    · rw [← a.name?_shape, h, b.name?_shape]
    · rw [← a.listing_shape, h, b.listing_shape]
    · rw [← a.partsListing_shape, h, b.partsListing_shape]
  · constructor
    · rw [← a.name?_shape, h, b.name?_shape]
    · rw [← a.validate_shape, h, b.validate_shape]
  · have hrender : (Source.decls as).render = (Source.decls bs).render := by
      rw [← Decl.render_decls_shape, h, Decl.render_decls_shape]
    obtain ⟨hpassage, hevents, htext⟩ := Source.outputs_of_render_eq hrender
    refine ⟨hpassage, hevents, htext, ?_⟩
    rw [← Decl.validateList_shape, h, Decl.validateList_shape]
  · have hrender : (Source.stmts as).render = (Source.stmts bs).render := by
      rw [← Stmt.render_stmts_shape, h, Stmt.render_stmts_shape]
    exact Source.outputs_of_render_eq hrender
  · rw [t.run_traverse, t.shape_mapAccum]

-- A loop behind two payloads, and a member without a type.
def labelledLoop {α : Type} (collection element : α) : Stmt α :=
  .returns (some (.loop "x" (.variable "xs" collection) (.inline "y" none (.variable "x" element))))

def labelledStruct {α : Type} (collection element : α) : Decl α :=
  .struct ⟨.everyone, "Outer", ["Equatable"],
    [.property ⟨.scope, "bare", none, false, .variable, none⟩,
      .initializer ⟨.internal, [], true, [labelledLoop collection element]⟩]⟩

-- Numbers and texts in the same places make no difference.
theorem payloads_unobservable_labelled :
    (Fragment.decl (labelledStruct 1 2)).shape = (Fragment.decl (labelledStruct "a" "b")).shape ∧
    (Fragment.decl (labelledStruct 1 2)).listing ["expr.loop"] =
      (Fragment.decl (labelledStruct "a" "b")).listing ["expr.loop"] ∧
    (labelledStruct 1 2).shape = (labelledStruct "a" "b").shape ∧
    (labelledStruct 1 2).validate = (labelledStruct "a" "b").validate ∧
    [labelledStruct 1 2].map Decl.shape = [labelledStruct "a" "b"].map Decl.shape ∧
    (Source.decls [labelledStruct 1 2]).render.events =
      (Source.decls [labelledStruct "a" "b"]).render.events ∧
    [labelledLoop 1 2].map Stmt.shape = [labelledLoop "a" "b"].map Stmt.shape ∧
    Stmt.textList .tabs [labelledLoop 1 2] = Stmt.textList .tabs [labelledLoop "a" "b"] := by
  have hall := payloads_unobservable (α := Nat) (β := String) (σ := Unit)
  have hdecl : (labelledStruct 1 2).shape = (labelledStruct "a" "b").shape := rfl
  have hfragment : (Fragment.decl (labelledStruct 1 2)).shape =
      (Fragment.decl (labelledStruct "a" "b")).shape := rfl
  have hdecls : [labelledStruct 1 2].map Decl.shape = [labelledStruct "a" "b"].map Decl.shape := rfl
  have hstmts : [labelledLoop 1 2].map Stmt.shape = [labelledLoop "a" "b"].map Stmt.shape := rfl
  refine ⟨hfragment, ?_, hdecl, ?_, hdecls, ?_, hstmts, ?_⟩
  · exact ((hall.1 _ _ hfragment).2.2.2.2 ["expr.loop"]).1
  · exact (hall.2.1 _ _ hdecl).2
  · exact (hall.2.2.1 _ _ hdecls).2.1
  · exact (hall.2.2.2.1 _ _ hstmts).2.2 .tabs

end SwiftSource

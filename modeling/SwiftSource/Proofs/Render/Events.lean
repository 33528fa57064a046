import SwiftSource.Proofs.Tree.Induction
import SwiftSource.Proofs.Tree.Outline
import SwiftSource.Render.Source

namespace SwiftSource

variable {α : Type}

-- What is reported of a fragment when a visitor comes to it.
def Fragment.report? : Fragment α → Option (Event.Level × Event)
  | .decl d => some (.debug, .declaration d.name?)
  | .expr (.loop element _ _) => some (.trace, .loop element)
  | .expr (.inline name _ _) => some (.trace, .inline name)
  | _ => none

def Logged.reports {β : Type} (x : Logged β) : List (Event.Level × Event) :=
  x.events.map fun event => (event.level, event)

namespace Logged

variable {β γ : Type}

@[simp]
theorem reports_pure (b : β) : (pure b : Logged β).reports = [] := rfl

@[simp]
theorem reports_bind (x : Logged β) (f : β → Logged γ) :
    (x >>= f).reports = x.reports ++ (f x.value).reports := by
  rw [reports, events_bind, List.map_append]
  rfl

@[simp]
theorem reports_log (event : Event) : (log event).reports = [(event.level, event)] := rfl

end Logged

-- Rendering a list reports what rendering each element reports.

namespace Expr

@[simp]
theorem reports_renderArguments (arguments : List (Argument (Expr α))) :
    (renderArguments arguments).reports = arguments.flatMap fun a => a.value.render.reports := by
  induction arguments with
  | nil => rfl
  | cons a rest ih => simp [renderArguments, ih]

@[simp]
theorem reports_renderElements (elements : List (Expr α)) :
    (renderElements elements).reports = elements.flatMap fun e => e.render.reports := by
  induction elements with
  | nil => rfl
  | cons e rest ih => simp [renderElements, ih]

@[simp]
theorem reports_renderOption (value : Option (Expr α)) :
    (renderOption value).reports = value.toList.flatMap fun e => e.render.reports := by
  cases value with
  | none => rfl
  | some value => simp [renderOption]

-- A node is rendered once, and its grouping is decided from the node that came out.
theorem reports_render (e : Expr α) : e.render.reports = e.outline.collect Fragment.report? := by
  induction e using Expr.induction with
  | literal value => rfl
  | reference name payload => rfl
  | conditional condition thenBranch elseBranch hc ht he =>
      rw [outline_conditional, Outline.collect_of_none rfl]
      simp [render, hc, ht, he]
  | loop element collection body hc hb =>
      have hreport : (Fragment.expr (.loop element collection body)).report? =
          some (.trace, .loop element) := rfl
      rw [outline_loop, Outline.collect_of_some hreport]
      simp [render, hc, hb, Event.level]
  | call name arguments ih =>
      rw [outline_call, Outline.collect_of_none rfl, List.flatMap_map]
      simpa [render] using List.flatMap_congr ih
  | method base name arguments hb ih =>
      rw [outline_method, Outline.collect_of_none rfl, List.flatMap_cons, List.flatMap_map]
      simpa [render, hb] using List.flatMap_congr ih
  | binary left operator right hl hr =>
      rw [outline_binary, Outline.collect_of_none rfl]
      simp [render, hl, hr]
  | property base name ih =>
      rw [outline_property, Outline.collect_of_none rfl]
      simp [render, ih]
  | inline name type initializer ih =>
      have hreport : (Fragment.expr (.inline name type initializer)).report? =
          some (.trace, .inline name) := rfl
      rw [outline_inline, Outline.collect_of_some hreport]
      simp [render, ih, Event.level]
  | array elements ih =>
      rw [outline_array, Outline.collect_of_none rfl, List.flatMap_map]
      simpa [render] using List.flatMap_congr ih

theorem flatMap_reports_render (values : List (Expr α)) :
    values.flatMap (fun e => e.render.reports) =
      (values.map outline).flatMap (Outline.collect Fragment.report?) := by
  rw [List.flatMap_map]
  exact List.flatMap_congr fun e _ => e.reports_render

end Expr

namespace Stmt

@[simp]
theorem reports_renderList (body : List (Stmt α)) :
    (renderList body).reports = body.flatMap fun s => s.render.reports := by
  induction body with
  | nil => rfl
  | cons s rest ih => simp [renderList, ih]

@[simp]
theorem reports_renderOption (body : Option (List (Stmt α))) :
    (renderOption body).reports = (body.getD []).flatMap fun s => s.render.reports := by
  cases body with
  | none => rfl
  | some body => simp [renderOption]

theorem reports_render (s : Stmt α) : s.render.reports = s.outline.collect Fragment.report? := by
  induction s using Stmt.induction with
  | bind binding name type initializer =>
      rw [outline_bind, Outline.collect_of_none rfl]
      simp [render, initializer.reports_render]
  | guard condition elseBody ih =>
      rw [outline_guard, Outline.collect_of_none rfl, List.flatMap_cons, List.flatMap_map]
      simpa [render, condition.reports_render] using List.flatMap_congr ih
  | branch condition thenBody elseBody ht he =>
      have helse : ∀ s ∈ elseBody.getD [],
          s.render.reports = s.outline.collect Fragment.report? := by
        cases elseBody with
        | none => simp
        | some elseBody => exact he elseBody rfl
      rw [outline_branch, Outline.collect_of_none rfl, List.flatMap_cons, List.flatMap_append,
        List.flatMap_map, List.flatMap_map]
      simp [render, condition.reports_render, List.flatMap_congr ht, List.flatMap_congr helse]
  | returns value =>
      rw [outline_returns, Outline.collect_of_none rfl]
      simp [render, Expr.flatMap_reports_render]
  | throws error =>
      rw [outline_throws, Outline.collect_of_none rfl]
      simp [render, error.reports_render]
  | defer body ih =>
      rw [outline_defer, Outline.collect_of_none rfl, List.flatMap_map]
      simpa [render] using List.flatMap_congr ih
  | expression value =>
      rw [outline_expression, Outline.collect_of_none rfl]
      simp [render, value.reports_render]

theorem flatMap_reports_render (body : List (Stmt α)) :
    body.flatMap (fun s => s.render.reports) =
      (body.map outline).flatMap (Outline.collect Fragment.report?) := by
  rw [List.flatMap_map]
  exact List.flatMap_congr fun s _ => s.reports_render

end Stmt

namespace Decl

theorem collect_outline (d : Decl α) (parts : List (Outline (Fragment α))) :
    (Outline.entry (.decl d) parts).collect Fragment.report? =
      (.debug, .declaration d.name?) :: parts.flatMap (Outline.collect Fragment.report?) := by
  have hreport : (Fragment.decl d).report? = some (.debug, .declaration d.name?) := rfl
  exact Outline.collect_of_some hreport parts

theorem reports_render_eq (d : Decl α) :
    d.render.reports = (.debug, .declaration d.name?) :: d.renderBody.reports := by
  simp [render, Event.level]

@[simp]
theorem reports_renderList (ds : List (Decl α)) :
    (renderList ds).reports = ds.flatMap fun d => d.render.reports := by
  induction ds with
  | nil => rfl
  | cons d rest ih => simp [renderList, ih, reports_render_eq, Event.level]

@[simp]
theorem reports_renderSetter (setter : Option (Setter α)) :
    (renderSetter setter).reports =
      ((setter.map Setter.body).getD []).flatMap fun s => s.render.reports := by
  cases setter with
  | none => rfl
  | some setter => simp [renderSetter]

theorem reports_render (d : Decl α) : d.render.reports = d.outline.collect Fragment.report? := by
  induction d using Decl.induction with
  | function d =>
      rw [outline_function, collect_outline, reports_render_eq]
      simp [renderBody, renderFunction, Stmt.flatMap_reports_render]
  | property d =>
      rw [outline_property, collect_outline, reports_render_eq]
      simp [renderBody, renderProperty, Expr.flatMap_reports_render]
  | computed d =>
      rw [outline_computed, collect_outline, reports_render_eq]
      simp [renderBody, renderComputed, Stmt.flatMap_reports_render, ComputedDecl.setterBody]
  | extension d ih =>
      rw [outline_extension, collect_outline, reports_render_eq, List.flatMap_map]
      simp [renderBody, List.flatMap_congr ih]
  | struct d ih =>
      rw [outline_struct, collect_outline, reports_render_eq, List.flatMap_map]
      simp [renderBody, List.flatMap_congr ih]
  | initializer d =>
      rw [outline_initializer, collect_outline, reports_render_eq]
      simp [renderBody, renderInitializer, Stmt.flatMap_reports_render]

end Decl

theorem Fragment.reports_render (t : Fragment α) :
    t.source.render.reports = t.outline.collect report? := by
  cases t with
  | expr e => simpa [source, outline, Source.render] using e.reports_render
  | stmt s => simpa [source, outline, Source.render] using s.reports_render
  | decl d => simpa [source, outline, Source.render] using d.reports_render

-- Rendering reports every declaration, every loop and every inline declaration once, when a
-- visitor would come to it, and nothing else.
theorem rendering_reports_visited :
    (∀ t : Fragment α, t.source.render.reports = t.outline.heads.filterMap Fragment.report?) ∧
    (∀ ss : List (Stmt α), (Source.stmts ss).render.reports =
      (ss.flatMap fun s => s.outline.heads).filterMap Fragment.report?) ∧
    (∀ ds : List (Decl α), (Source.decls ds).render.reports =
      (ds.flatMap fun d => d.outline.heads).filterMap Fragment.report?) ∧
    ∀ l : Literal, (Source.literal l : Source α).render.reports = [] := by
  refine ⟨Fragment.reports_render, fun ss => ?_, fun ds => ?_, fun l => rfl⟩
  · rw [List.filterMap_flatMap]
    simpa [Source.render] using List.flatMap_congr fun s _ => s.reports_render
  · rw [List.filterMap_flatMap]
    simpa [Source.render] using List.flatMap_congr fun d _ => d.reports_render

end SwiftSource

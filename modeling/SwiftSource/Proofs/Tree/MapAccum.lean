import SwiftSource.Proofs.Tree.Accumulate
import SwiftSource.Proofs.Tree.Induction
import SwiftSource.Proofs.Tree.Payloads
import SwiftSource.Tree.Map

namespace SwiftSource

variable {α β σ : Type}

-- Relabelling a tree takes the function through the list of its payloads.

namespace Expr

def mapAccumArgument (f : σ → α → β × σ) (s : σ) (a : Argument (Expr α)) :
    Argument (Expr β) × σ :=
  let v := a.value.mapAccum f s
  (⟨a.label, v.1⟩, v.2)

theorem mapAccumArguments_eq (f : σ → α → β × σ) (s : σ) (arguments : List (Argument (Expr α))) :
    mapAccumArguments f s arguments = accumulate (mapAccumArgument f) s arguments := by
  induction arguments generalizing s with
  | nil => rfl
  | cons a rest ih => rw [mapAccumArguments, ih, accumulate_cons, mapAccumArgument]

theorem mapAccumElements_eq (f : σ → α → β × σ) (s : σ) (elements : List (Expr α)) :
    mapAccumElements f s elements = accumulate (mapAccum f) s elements := by
  induction elements generalizing s with
  | nil => rfl
  | cons e rest ih => rw [mapAccumElements, ih, accumulate_cons]

theorem accumulate_payloads (f : σ → α → β × σ) (s : σ) (e : Expr α) :
    accumulate f s e.payloads = ((e.mapAccum f s).1.payloads, (e.mapAccum f s).2) := by
  have harguments {arguments : List (Argument (Expr α))}
      (h : ∀ a ∈ arguments, ∀ s, accumulate f s a.value.payloads =
        ((a.value.mapAccum f s).1.payloads, (a.value.mapAccum f s).2)) (s : σ) :
      accumulate f s (arguments.flatMap fun a => a.value.payloads) =
        ((accumulate (mapAccumArgument f) s arguments).1.flatMap fun a => a.value.payloads,
          (accumulate (mapAccumArgument f) s arguments).2) := by
    apply accumulate_flatMap
    exact h
  -- each part starts in the state that the one before it left, so the state is arbitrary
  induction e using Expr.induction generalizing s with
  | literal value => rfl
  | reference name payload => rfl
  | conditional condition thenBranch elseBranch hc ht he =>
      simp only [mapAccum, payloads_conditional, accumulate_append, hc, ht, he]
  | loop element collection body hc hb =>
      simp only [mapAccum, payloads_loop, accumulate_append, hc, hb]
  | call name arguments ih =>
      simp only [mapAccum, payloads_call, mapAccumArguments_eq, harguments fun a ha s => ih a ha s]
  | method base name arguments hb ih =>
      simp only [mapAccum, payloads_method, mapAccumArguments_eq, accumulate_append, hb,
        harguments fun a ha s => ih a ha s]
  | binary left operator right hl hr =>
      simp only [mapAccum, payloads_binary, accumulate_append, hl, hr]
  | property base name ih => simp only [mapAccum, payloads_property, ih]
  | inline name type initializer ih => simp only [mapAccum, payloads_inline, ih]
  | array elements ih =>
      simp only [mapAccum, payloads_array, mapAccumElements_eq]
      exact accumulate_flatMap (fun e he s => ih e he s) s

theorem accumulate_payloads_option (f : σ → α → β × σ) (s : σ) (value : Option (Expr α)) :
    accumulate f s (value.toList.flatMap payloads) =
      ((mapAccumOption f s value).1.toList.flatMap payloads, (mapAccumOption f s value).2) := by
  cases value with
  | none => rfl
  | some value => simpa [mapAccumOption] using accumulate_payloads f s value

end Expr

namespace Stmt

theorem mapAccumList_eq (f : σ → α → β × σ) (s : σ) (body : List (Stmt α)) :
    mapAccumList f s body = accumulate (mapAccum f) s body := by
  induction body generalizing s with
  | nil => rfl
  | cons stmt rest ih => rw [mapAccumList, ih, accumulate_cons]

private theorem accumulate_body {f : σ → α → β × σ} {body : List (Stmt α)}
    (h : ∀ stmt ∈ body, ∀ s, accumulate f s stmt.payloads =
      ((stmt.mapAccum f s).1.payloads, (stmt.mapAccum f s).2)) (s : σ) :
    accumulate f s (body.flatMap payloads) =
      ((mapAccumList f s body).1.flatMap payloads, (mapAccumList f s body).2) := by
  rw [mapAccumList_eq]
  exact accumulate_flatMap h s

theorem accumulate_payloads (f : σ → α → β × σ) (s : σ) (stmt : Stmt α) :
    accumulate f s stmt.payloads = ((stmt.mapAccum f s).1.payloads, (stmt.mapAccum f s).2) := by
  induction stmt using Stmt.induction generalizing s with
  | bind binding name type initializer =>
      simp only [mapAccum, payloads_bind, Expr.accumulate_payloads]
  | guard condition elseBody ih =>
      simp only [mapAccum, payloads_guard, accumulate_append, Expr.accumulate_payloads,
        accumulate_body fun stmt hstmt s => ih stmt hstmt s]
  | branch condition thenBody elseBody ht he =>
      simp only [mapAccum, payloads_branch, accumulate_append, Expr.accumulate_payloads,
        accumulate_body fun stmt hstmt s => ht stmt hstmt s]
      cases elseBody with
      | none => rfl
      | some elseBody =>
          simp only [mapAccumOption, Option.getD_some,
            accumulate_body fun stmt hstmt s => he elseBody rfl stmt hstmt s]
  | returns value => simp only [mapAccum, payloads_returns, Expr.accumulate_payloads_option]
  | throws error => simp only [mapAccum, payloads_throws, Expr.accumulate_payloads]
  | defer body ih =>
      simp only [mapAccum, payloads_defer, accumulate_body fun stmt hstmt s => ih stmt hstmt s]
  | expression value => simp only [mapAccum, payloads_expression, Expr.accumulate_payloads]

theorem accumulate_payloads_list (f : σ → α → β × σ) (s : σ) (body : List (Stmt α)) :
    accumulate f s (body.flatMap payloads) =
      ((mapAccumList f s body).1.flatMap payloads, (mapAccumList f s body).2) :=
  accumulate_body (fun stmt _ s => stmt.accumulate_payloads f s) s

end Stmt

namespace Decl

theorem mapAccumList_eq (f : σ → α → β × σ) (s : σ) (members : List (Decl α)) :
    mapAccumList f s members = accumulate (mapAccum f) s members := by
  induction members generalizing s with
  | nil => rfl
  | cons d rest ih => rw [mapAccumList, ih, accumulate_cons]

theorem accumulate_payloads (f : σ → α → β × σ) (s : σ) (d : Decl α) :
    accumulate f s d.payloads = ((d.mapAccum f s).1.payloads, (d.mapAccum f s).2) := by
  have hmembers {members : List (Decl α)} (h : ∀ d ∈ members, ∀ s, accumulate f s d.payloads =
        ((d.mapAccum f s).1.payloads, (d.mapAccum f s).2)) (s : σ) :
      accumulate f s (members.flatMap payloads) =
        ((mapAccumList f s members).1.flatMap payloads, (mapAccumList f s members).2) := by
    rw [mapAccumList_eq]
    exact accumulate_flatMap h s
  induction d using Decl.induction generalizing s with
  | function d => simp only [mapAccum, payloads_function, Stmt.accumulate_payloads_list]
  | property d => simp only [mapAccum, payloads_property, Expr.accumulate_payloads_option]
  | computed d =>
      obtain ⟨name, type, isStatic, getter, setter⟩ := d
      simp only [mapAccum, payloads_computed, accumulate_append, Stmt.accumulate_payloads_list]
      cases setter with
      | none => rfl
      | some setter =>
          simp only [Setter.mapAccumOption, ComputedDecl.setterBody, Option.map_some,
            Option.getD_some]
  | extension d ih =>
      simp only [mapAccum, payloads_extension, hmembers fun m hm s => ih m hm s]
  | struct d ih => simp only [mapAccum, payloads_struct, hmembers fun m hm s => ih m hm s]
  | initializer d => simp only [mapAccum, payloads_initializer, Stmt.accumulate_payloads_list]

end Decl

theorem Fragment.accumulate_payloads (f : σ → α → β × σ) (s : σ) (t : Fragment α) :
    accumulate f s t.payloads = ((t.mapAccum f s).1.payloads, (t.mapAccum f s).2) := by
  cases t with
  | expr e => simp only [mapAccum, payloads_expr, e.accumulate_payloads]
  | stmt stmt => simp only [mapAccum, payloads_stmt, stmt.accumulate_payloads]
  | decl d => simp only [mapAccum, payloads_decl, d.accumulate_payloads]

end SwiftSource

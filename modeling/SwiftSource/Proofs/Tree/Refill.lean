import SwiftSource.Proofs.Tree.Shape
import SwiftSource.Tree.Traverse

namespace SwiftSource

variable {α β : Type}

section Lists

variable {m : Type → Type} [Monad m] [LawfulMonad m]

namespace Expr

def traverseArgument (f : α → m β) (a : Argument (Expr α)) : m (Argument (Expr β)) := do
  return ⟨a.label, ← a.value.traverse f⟩

theorem traverseArguments_eq (f : α → m β) (arguments : List (Argument (Expr α))) :
    traverseArguments f arguments = arguments.mapM (traverseArgument f) := by
  induction arguments with
  | nil => rfl
  | cons a rest ih =>
      simp only [traverseArguments, ih, List.mapM_cons, traverseArgument, bind_assoc, pure_bind]

theorem traverseElements_eq (f : α → m β) (elements : List (Expr α)) :
    traverseElements f elements = elements.mapM (traverse f) := by
  induction elements with
  | nil => rfl
  | cons e rest ih => rw [traverseElements, ih, List.mapM_cons]

end Expr

theorem Stmt.traverseList_eq (f : α → m β) (body : List (Stmt α)) :
    traverseList f body = body.mapM (traverse f) := by
  induction body with
  | nil => rfl
  | cons stmt rest ih => rw [traverseList, ih, List.mapM_cons]

theorem Decl.traverseList_eq (f : α → m β) (members : List (Decl α)) :
    traverseList f members = members.mapM (traverse f) := by
  induction members with
  | nil => rfl
  | cons d rest ih => rw [traverseList, ih, List.mapM_cons]

end Lists

-- Takes the first value of a list.
def takeNext : StateT (List α) Option α
  | [] => none
  | a :: rest => some (a, rest)

-- What fills each tree of a list fills the list.
private theorem refill_each {ρ : Type} {fill : ρ → StateT (List α) Option ρ}
    {payloads : ρ → List α} {xs : List ρ}
    (h : ∀ x ∈ xs, ∀ rest, (fill x).run (payloads x ++ rest) = some (x, rest)) (rest : List α) :
    (xs.mapM fill).run (xs.flatMap payloads ++ rest) = some (xs, rest) := by
  induction xs with
  | nil => rfl
  | cons x xs ih =>
      obtain ⟨hx, hxs⟩ := List.forall_mem_cons.mp h
      simp [List.mapM_cons, hx, ih hxs]

-- Filling the shape of a tree with its payloads gives the tree back. Each part takes as many
-- values as it has payloads and leaves the rest to the parts behind it.

namespace Expr

theorem refill_shape (e : Expr α) (rest : List α) :
    (e.shape.traverse fun _ => takeNext).run (e.payloads ++ rest) = some (e, rest) := by
  have harguments {arguments : List (Argument (Expr α))}
      (h : ∀ a ∈ arguments, ∀ rest, (a.value.shape.traverse fun _ => takeNext).run
        (a.value.payloads ++ rest) = some (a.value, rest)) (rest : List α) :
      ((arguments.map fun a => ⟨a.label, a.value.shape⟩).mapM
          (traverseArgument fun _ => takeNext)).run
        (arguments.flatMap (fun a => a.value.payloads) ++ rest) = some (arguments, rest) := by
    rw [List.mapM_map]
    refine refill_each (fun a ha rest => ?_) rest
    simp [traverseArgument, h a ha]
  induction e using Expr.induction generalizing rest with
  | literal value => rfl
  | reference name payload => rfl
  | conditional condition thenBranch elseBranch hc ht he => simp [traverse, hc, ht, he]
  | loop element collection body hc hb => simp [traverse, hc, hb]
  | call name arguments ih =>
      simp [traverse, traverseArguments_eq, -List.mapM_map,
        harguments fun a ha rest => ih a ha rest]
  | method base name arguments hb ih =>
      simp [traverse, traverseArguments_eq, -List.mapM_map, hb,
        harguments fun a ha rest => ih a ha rest]
  | binary left operator right hl hr => simp [traverse, hl, hr]
  | property base name ih => simp [traverse, ih]
  | inline name type initializer ih => simp [traverse, ih]
  | array elements ih =>
      simp [traverse, traverseElements_eq, Function.comp_def,
        refill_each fun e he rest => ih e he rest]

end Expr

namespace Stmt

private theorem refill_body {body : List (Stmt α)}
    (h : ∀ stmt ∈ body, ∀ rest, (stmt.shape.traverse fun _ => takeNext).run
      (stmt.payloads ++ rest) = some (stmt, rest)) (rest : List α) :
    (traverseList (fun _ => takeNext) (body.map shape)).run (body.flatMap payloads ++ rest) =
      some (body, rest) := by
  rw [traverseList_eq, List.mapM_map]
  exact refill_each h rest

theorem refill_shape (stmt : Stmt α) (rest : List α) :
    (stmt.shape.traverse fun _ => takeNext).run (stmt.payloads ++ rest) = some (stmt, rest) := by
  induction stmt using Stmt.induction generalizing rest with
  | bind binding name type initializer => simp [traverse, initializer.refill_shape]
  | guard condition elseBody ih =>
      simp [traverse, condition.refill_shape, refill_body fun stmt hstmt rest => ih stmt hstmt rest]
  | branch condition thenBody elseBody ht he =>
      have hthen := refill_body fun stmt hstmt rest => ht stmt hstmt rest
      cases elseBody with
      | none => simpa [traverse, traverseOption, condition.refill_shape] using hthen rest
      | some elseBody =>
          have helse := refill_body fun stmt hstmt rest => he elseBody rfl stmt hstmt rest
          simp [traverse, traverseOption, condition.refill_shape, hthen, helse]
  | returns value =>
      cases value with
      | none => rfl
      | some value => simp [traverse, Expr.traverseOption, value.refill_shape]
  | throws error => simp [traverse, error.refill_shape]
  | defer body ih => simp [traverse, refill_body fun stmt hstmt rest => ih stmt hstmt rest]
  | expression value => simp [traverse, value.refill_shape]

theorem refill_list (body : List (Stmt α)) (rest : List α) :
    (traverseList (fun _ => takeNext) (body.map shape)).run (body.flatMap payloads ++ rest) =
      some (body, rest) :=
  refill_body (fun stmt _ rest => stmt.refill_shape rest) rest

end Stmt

theorem Decl.refill_shape (d : Decl α) (rest : List α) :
    (d.shape.traverse fun _ => takeNext).run (d.payloads ++ rest) = some (d, rest) := by
  have hmembers {members : List (Decl α)}
      (h : ∀ d ∈ members, ∀ rest, (d.shape.traverse fun _ => takeNext).run (d.payloads ++ rest) =
        some (d, rest)) (rest : List α) :
      (traverseList (fun _ => takeNext) (members.map shape)).run
        (members.flatMap payloads ++ rest) = some (members, rest) := by
    rw [traverseList_eq, List.mapM_map]
    exact refill_each h rest
  induction d using Decl.induction generalizing rest with
  | function d => simp [traverse, Stmt.refill_list]
  | property d =>
      obtain ⟨access, name, type, isStatic, binding, initializer⟩ := d
      cases initializer with
      | none => rfl
      | some initializer => simp [traverse, Expr.traverseOption, initializer.refill_shape]
  | computed d =>
      obtain ⟨name, type, isStatic, getter, setter⟩ := d
      cases setter with
      | none =>
          simpa [traverse, Setter.traverseOption, ComputedDecl.setterBody]
            using Stmt.refill_list getter rest
      | some setter =>
          simp [traverse, Setter.traverseOption, Setter.shape, ComputedDecl.setterBody,
            Stmt.refill_list]
  | extension d ih => simp [traverse, hmembers fun m hm rest => ih m hm rest]
  | struct d ih => simp [traverse, hmembers fun m hm rest => ih m hm rest]
  | initializer d => simp [traverse, Stmt.refill_list]

theorem Fragment.refill_shape (t : Fragment α) (rest : List α) :
    (t.shape.traverse fun _ => takeNext).run (t.payloads ++ rest) = some (t, rest) := by
  cases t with
  | expr e => simp [traverse, e.refill_shape]
  | stmt stmt => simp [traverse, stmt.refill_shape]
  | decl d => simp [traverse, d.refill_shape]

-- A tree is determined by its shape and the list of its payloads.
theorem Fragment.ext_of_shape {t u : Fragment α} (hshape : t.shape = u.shape)
    (hpayloads : t.payloads = u.payloads) : t = u := by
  -- the same shape filled with the same values
  have ht := t.refill_shape []
  rw [hshape, hpayloads, u.refill_shape []] at ht
  exact (Prod.mk.inj (Option.some.inj ht)).1.symm

end SwiftSource

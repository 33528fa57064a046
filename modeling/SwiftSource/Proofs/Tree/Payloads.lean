import SwiftSource.Proofs.Tree.Outline

namespace SwiftSource

variable {α : Type}

-- The payloads of a tree are those of its parts, in source order.

namespace Expr

theorem payloads_eq (e : Expr α) : e.payloads = e.outline.collect Fragment.payload? := rfl

@[simp]
theorem payloads_literal (value : Literal) : (.literal value : Expr α).payloads = [] := rfl

@[simp]
theorem payloads_variable (name : String) (payload : α) :
    (Expr.variable name payload).payloads = [payload] := rfl

@[simp]
theorem payloads_conditional (condition thenBranch elseBranch : Expr α) :
    (Expr.conditional condition thenBranch elseBranch).payloads =
      condition.payloads ++ (thenBranch.payloads ++ elseBranch.payloads) := by
  rw [payloads_eq, outline_conditional, Outline.collect_of_none rfl]
  simp [payloads_eq]

@[simp]
theorem payloads_loop (element : String) (collection body : Expr α) :
    (Expr.loop element collection body).payloads = collection.payloads ++ body.payloads := by
  rw [payloads_eq, outline_loop, Outline.collect_of_none rfl]
  simp [payloads_eq]

@[simp]
theorem payloads_call (name : String) (arguments : List (Argument (Expr α))) :
    (Expr.call name arguments).payloads = arguments.flatMap fun a => a.value.payloads := by
  rw [payloads_eq, outline_call, Outline.collect_of_none rfl, List.flatMap_map]
  rfl

@[simp]
theorem payloads_method (base : Expr α) (name : String) (arguments : List (Argument (Expr α))) :
    (Expr.method base name arguments).payloads =
      base.payloads ++ arguments.flatMap fun a => a.value.payloads := by
  rw [payloads_eq, outline_method, Outline.collect_of_none rfl, List.flatMap_cons, List.flatMap_map]
  rfl

@[simp]
theorem payloads_binary (left : Expr α) (operator : String) (right : Expr α) :
    (Expr.binary left operator right).payloads = left.payloads ++ right.payloads := by
  rw [payloads_eq, outline_binary, Outline.collect_of_none rfl]
  simp [payloads_eq]

@[simp]
theorem payloads_property (base : Expr α) (name : String) :
    (Expr.property base name).payloads = base.payloads := by
  rw [payloads_eq, outline_property, Outline.collect_of_none rfl, List.flatMap_singleton]
  rfl

@[simp]
theorem payloads_inline (name : String) (type : Option String) (initializer : Expr α) :
    (Expr.inline name type initializer).payloads = initializer.payloads := by
  rw [payloads_eq, outline_inline, Outline.collect_of_none rfl, List.flatMap_singleton]
  rfl

@[simp]
theorem payloads_array (elements : List (Expr α)) :
    (Expr.array elements).payloads = elements.flatMap payloads := by
  rw [payloads_eq, outline_array, Outline.collect_of_none rfl, List.flatMap_map]
  rfl

end Expr

namespace Stmt

theorem payloads_eq (s : Stmt α) : s.payloads = s.outline.collect Fragment.payload? := rfl

@[simp]
theorem payloads_bind (binding : Binding) (name : String) (type : Option String)
    (initializer : Expr α) :
    (Stmt.bind binding name type initializer).payloads = initializer.payloads := by
  rw [payloads_eq, outline_bind, Outline.collect_of_none rfl, List.flatMap_singleton]
  rfl

@[simp]
theorem payloads_guard (condition : Expr α) (elseBody : List (Stmt α)) :
    (Stmt.guard condition elseBody).payloads =
      condition.payloads ++ elseBody.flatMap payloads := by
  rw [payloads_eq, outline_guard, Outline.collect_of_none rfl, List.flatMap_cons, List.flatMap_map]
  rfl

@[simp]
theorem payloads_branch (condition : Expr α) (thenBody : List (Stmt α))
    (elseBody : Option (List (Stmt α))) :
    (Stmt.branch condition thenBody elseBody).payloads =
      condition.payloads ++ (thenBody.flatMap payloads ++
        (elseBody.getD []).flatMap payloads) := by
  rw [payloads_eq, outline_branch, Outline.collect_of_none rfl,
    List.flatMap_cons, List.flatMap_append, List.flatMap_map, List.flatMap_map]
  rfl

@[simp]
theorem payloads_returns (value : Option (Expr α)) :
    (Stmt.returns value).payloads = value.toList.flatMap Expr.payloads := by
  rw [payloads_eq, outline_returns, Outline.collect_of_none rfl, List.flatMap_map]
  rfl

@[simp]
theorem payloads_throws (error : Expr α) : (Stmt.throws error).payloads = error.payloads := by
  rw [payloads_eq, outline_throws, Outline.collect_of_none rfl, List.flatMap_singleton]
  rfl

@[simp]
theorem payloads_defer (body : List (Stmt α)) :
    (Stmt.defer body).payloads = body.flatMap payloads := by
  rw [payloads_eq, outline_defer, Outline.collect_of_none rfl, List.flatMap_map]
  rfl

@[simp]
theorem payloads_expression (value : Expr α) :
    (Stmt.expression value).payloads = value.payloads := by
  rw [payloads_eq, outline_expression, Outline.collect_of_none rfl, List.flatMap_singleton]
  rfl

end Stmt

namespace Decl

theorem payloads_eq (d : Decl α) : d.payloads = d.outline.collect Fragment.payload? := rfl

@[simp]
theorem payloads_function (d : FunctionDecl α) :
    (Decl.function d).payloads = d.body.flatMap Stmt.payloads := by
  rw [payloads_eq, outline_function, Outline.collect_of_none rfl, List.flatMap_map]
  rfl

@[simp]
theorem payloads_property (d : PropertyDecl α) :
    (Decl.property d).payloads = d.initializer.toList.flatMap Expr.payloads := by
  rw [payloads_eq, outline_property, Outline.collect_of_none rfl, List.flatMap_map]
  rfl

@[simp]
theorem payloads_computed (d : ComputedDecl α) :
    (Decl.computed d).payloads =
      d.getter.flatMap Stmt.payloads ++
        d.setterBody.flatMap Stmt.payloads := by
  rw [payloads_eq, outline_computed, Outline.collect_of_none rfl,
    List.flatMap_append, List.flatMap_map, List.flatMap_map]
  rfl

@[simp]
theorem payloads_extension (d : ExtensionDecl (Decl α)) :
    (Decl.extension d).payloads = d.members.flatMap payloads := by
  rw [payloads_eq, outline_extension, Outline.collect_of_none rfl, List.flatMap_map]
  rfl

@[simp]
theorem payloads_struct (d : StructDecl (Decl α)) :
    (Decl.struct d).payloads = d.members.flatMap payloads := by
  rw [payloads_eq, outline_struct, Outline.collect_of_none rfl, List.flatMap_map]
  rfl

@[simp]
theorem payloads_initializer (d : InitializerDecl α) :
    (Decl.initializer d).payloads = d.body.flatMap Stmt.payloads := by
  rw [payloads_eq, outline_initializer, Outline.collect_of_none rfl, List.flatMap_map]
  rfl

end Decl

namespace Fragment

@[simp]
theorem payloads_expr (e : Expr α) : (Fragment.expr e).payloads = e.payloads := rfl

@[simp]
theorem payloads_stmt (s : Stmt α) : (Fragment.stmt s).payloads = s.payloads := rfl

@[simp]
theorem payloads_decl (d : Decl α) : (Fragment.decl d).payloads = d.payloads := rfl

end Fragment

end SwiftSource

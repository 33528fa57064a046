import SwiftSource.Tree.Basic

namespace SwiftSource

variable {α : Type}

-- Induction over trees. For a list of subtrees the hypothesis speaks of each of its members.

@[elab_as_elim]
theorem Expr.induction {motive : Expr α → Prop}
    (literal : ∀ value, motive (.literal value))
    (reference : ∀ name payload, motive (.variable name payload))
    (conditional : ∀ condition thenBranch elseBranch, motive condition → motive thenBranch →
      motive elseBranch → motive (.conditional condition thenBranch elseBranch))
    (loop : ∀ element collection body, motive collection → motive body →
      motive (.loop element collection body))
    (call : ∀ name arguments, (∀ a ∈ arguments, motive a.value) → motive (.call name arguments))
    (method : ∀ base name arguments, motive base → (∀ a ∈ arguments, motive a.value) →
      motive (.method base name arguments))
    (binary : ∀ left operator right, motive left → motive right →
      motive (.binary left operator right))
    (property : ∀ base name, motive base → motive (.property base name))
    (inline : ∀ name type initializer, motive initializer →
      motive (.inline name type initializer))
    (array : ∀ elements, (∀ e ∈ elements, motive e) → motive (.array elements))
    (e : Expr α) : motive e :=
  @Expr.rec α motive (fun arguments => ∀ a ∈ arguments, motive a.value)
    (fun elements => ∀ e ∈ elements, motive e) (fun a => motive a.value)
    literal reference conditional loop call method binary property inline array
    (by simp) (fun _ _ ha has => List.forall_mem_cons.mpr ⟨ha, has⟩)
    (by simp) (fun _ _ he hes => List.forall_mem_cons.mpr ⟨he, hes⟩)
    (fun _ _ h => h) e

@[elab_as_elim]
theorem Stmt.induction {motive : Stmt α → Prop}
    (bind : ∀ binding name type initializer, motive (.bind binding name type initializer))
    (guard : ∀ condition elseBody, (∀ s ∈ elseBody, motive s) →
      motive (.guard condition elseBody))
    (branch : ∀ condition thenBody elseBody, (∀ s ∈ thenBody, motive s) →
      (∀ body ∈ elseBody, ∀ s ∈ body, motive s) → motive (.branch condition thenBody elseBody))
    (returns : ∀ value, motive (.returns value))
    (throws : ∀ error, motive (.throws error))
    (defer : ∀ body, (∀ s ∈ body, motive s) → motive (.defer body))
    (expression : ∀ value, motive (.expression value))
    (s : Stmt α) : motive s :=
  @Stmt.rec α motive (fun body => ∀ s ∈ body, motive s)
    (fun elseBody => ∀ body ∈ elseBody, ∀ s ∈ body, motive s)
    bind guard branch returns throws defer expression
    (by simp) (fun _ _ hs hss => List.forall_mem_cons.mpr ⟨hs, hss⟩)
    (by simp) (fun _ h body hbody => Option.mem_some.mp hbody ▸ h) s

@[elab_as_elim]
theorem Decl.induction {motive : Decl α → Prop}
    (function : ∀ d, motive (.function d))
    (property : ∀ d, motive (.property d))
    (computed : ∀ d, motive (.computed d))
    (extension : ∀ d, (∀ m ∈ d.members, motive m) → motive (.extension d))
    (struct : ∀ d, (∀ m ∈ d.members, motive m) → motive (.struct d))
    (initializer : ∀ d, motive (.initializer d))
    (d : Decl α) : motive d :=
  @Decl.rec α motive (fun d => ∀ m ∈ d.members, motive m) (fun d => ∀ m ∈ d.members, motive m)
    (fun members => ∀ m ∈ members, motive m)
    function property computed extension struct initializer
    (fun _ _ _ h => h) (fun _ _ _ _ h => h)
    (by simp) (fun _ _ hm hms => List.forall_mem_cons.mpr ⟨hm, hms⟩) d

end SwiftSource

import SwiftSource.Proofs.Tree.MapAccum

namespace SwiftSource

variable {α β σ : Type}

-- What is left of a tree when every payload is replaced by the same value.

def Expr.shape (e : Expr α) : Expr Unit :=
  (e.mapAccum (fun _ _ => ((), ())) ()).1

def Stmt.shape (s : Stmt α) : Stmt Unit :=
  (s.mapAccum (fun _ _ => ((), ())) ()).1

def Decl.shape (d : Decl α) : Decl Unit :=
  (d.mapAccum (fun _ _ => ((), ())) ()).1

def Fragment.shape (t : Fragment α) : Fragment Unit :=
  (t.mapAccum (fun _ _ => ((), ())) ()).1

namespace Expr

@[simp]
theorem shape_literal (value : Literal) :
    (.literal value : Expr α).shape = .literal value := rfl

@[simp]
theorem shape_variable (name : String) (payload : α) :
    (Expr.variable name payload).shape = .variable name () := rfl

@[simp]
theorem shape_conditional (condition thenBranch elseBranch : Expr α) :
    (Expr.conditional condition thenBranch elseBranch).shape =
      .conditional condition.shape thenBranch.shape elseBranch.shape := rfl

@[simp]
theorem shape_loop (element : String) (collection body : Expr α) :
    (Expr.loop element collection body).shape = .loop element collection.shape body.shape := rfl

private theorem shape_arguments (arguments : List (Argument (Expr α))) :
    (mapAccumArguments (fun _ _ => ((), ())) () arguments).1 =
      arguments.map fun a => ⟨a.label, a.value.shape⟩ := by
  rw [mapAccumArguments_eq, accumulate_unit]
  rfl

@[simp]
theorem shape_call (name : String) (arguments : List (Argument (Expr α))) :
    (Expr.call name arguments).shape =
      .call name (arguments.map fun a => ⟨a.label, a.value.shape⟩) := by
  rw [← shape_arguments]
  rfl

@[simp]
theorem shape_method (base : Expr α) (name : String) (arguments : List (Argument (Expr α))) :
    (Expr.method base name arguments).shape =
      .method base.shape name (arguments.map fun a => ⟨a.label, a.value.shape⟩) := by
  rw [← shape_arguments]
  rfl

@[simp]
theorem shape_binary (left : Expr α) (operator : String) (right : Expr α) :
    (Expr.binary left operator right).shape = .binary left.shape operator right.shape := rfl

@[simp]
theorem shape_property (base : Expr α) (name : String) :
    (Expr.property base name).shape = .property base.shape name := rfl

@[simp]
theorem shape_inline (name : String) (type : Option String) (initializer : Expr α) :
    (Expr.inline name type initializer).shape = .inline name type initializer.shape := rfl

@[simp]
theorem shape_array (elements : List (Expr α)) :
    (Expr.array elements).shape = .array (elements.map shape) := by
  have helements : (mapAccumElements (fun _ _ => ((), ())) () elements).1 =
      elements.map shape := by
    rw [mapAccumElements_eq, accumulate_unit]
    rfl
  rw [← helements]
  rfl

end Expr

namespace Stmt

@[simp]
theorem shape_bind (binding : Binding) (name : String) (type : Option String)
    (initializer : Expr α) :
    (Stmt.bind binding name type initializer).shape =
      .bind binding name type initializer.shape := rfl

theorem shape_body (body : List (Stmt α)) :
    (mapAccumList (fun _ _ => ((), ())) () body).1 = body.map shape := by
  rw [mapAccumList_eq, accumulate_unit]
  rfl

@[simp]
theorem shape_guard (condition : Expr α) (elseBody : List (Stmt α)) :
    (Stmt.guard condition elseBody).shape =
      .guard condition.shape (elseBody.map shape) := by
  rw [← shape_body]
  rfl

@[simp]
theorem shape_branch (condition : Expr α) (thenBody : List (Stmt α))
    (elseBody : Option (List (Stmt α))) :
    (Stmt.branch condition thenBody elseBody).shape =
      .branch condition.shape (thenBody.map shape) (elseBody.map (List.map shape)) := by
  cases elseBody with
  | none =>
      rw [← shape_body]
      rfl
  | some elseBody =>
      rw [Option.map_some, ← shape_body, ← shape_body]
      rfl

@[simp]
theorem shape_returns (value : Option (Expr α)) :
    (Stmt.returns value).shape = .returns (value.map Expr.shape) := by
  cases value with
  | none => rfl
  | some value => rfl

@[simp]
theorem shape_throws (error : Expr α) : (Stmt.throws error).shape = .throws error.shape := rfl

@[simp]
theorem shape_defer (body : List (Stmt α)) :
    (Stmt.defer body).shape = .defer (body.map shape) := by
  rw [← shape_body]
  rfl

@[simp]
theorem shape_expression (value : Expr α) :
    (Stmt.expression value).shape = .expression value.shape := rfl

end Stmt

def Setter.shape (setter : Setter α) : Setter Unit :=
  ⟨setter.parameter, setter.body.map Stmt.shape⟩

namespace Decl

@[simp]
theorem shape_function (d : FunctionDecl α) :
    (Decl.function d).shape =
      .function ⟨d.access, d.name, d.parameters, d.isAsync, d.canThrow, d.returnType,
        d.body.map Stmt.shape⟩ := by
  rw [← Stmt.shape_body]
  rfl

@[simp]
theorem shape_property (d : PropertyDecl α) :
    (Decl.property d).shape =
      .property ⟨d.access, d.name, d.type, d.isStatic, d.binding,
        d.initializer.map Expr.shape⟩ := by
  obtain ⟨access, name, type, isStatic, binding, initializer⟩ := d
  cases initializer with
  | none => rfl
  | some initializer => rfl

@[simp]
theorem shape_computed (d : ComputedDecl α) :
    (Decl.computed d).shape =
      .computed ⟨d.name, d.type, d.isStatic, d.getter.map Stmt.shape,
        d.setter.map Setter.shape⟩ := by
  obtain ⟨name, type, isStatic, getter, setter⟩ := d
  cases setter with
  | none =>
      rw [← Stmt.shape_body]
      rfl
  | some setter =>
      rw [Option.map_some, Setter.shape, ← Stmt.shape_body, ← Stmt.shape_body]
      rfl

private theorem shape_members (members : List (Decl α)) :
    (mapAccumList (fun _ _ => ((), ())) () members).1 = members.map shape := by
  rw [mapAccumList_eq, accumulate_unit]
  rfl

@[simp]
theorem shape_extension (d : ExtensionDecl (Decl α)) :
    (Decl.extension d).shape = .extension ⟨d.type, d.conformances, d.members.map shape⟩ := by
  rw [← shape_members]
  rfl

@[simp]
theorem shape_struct (d : StructDecl (Decl α)) :
    (Decl.struct d).shape = .struct ⟨d.access, d.name, d.conformances, d.members.map shape⟩ := by
  rw [← shape_members]
  rfl

@[simp]
theorem shape_initializer (d : InitializerDecl α) :
    (Decl.initializer d).shape =
      .initializer ⟨d.access, d.parameters, d.canThrow, d.body.map Stmt.shape⟩ := by
  rw [← Stmt.shape_body]
  rfl

end Decl

namespace Fragment

@[simp]
theorem shape_expr (e : Expr α) : (Fragment.expr e).shape = .expr e.shape := rfl

@[simp]
theorem shape_stmt (stmt : Stmt α) : (Fragment.stmt stmt).shape = .stmt stmt.shape := rfl

@[simp]
theorem shape_decl (d : Decl α) : (Fragment.decl d).shape = .decl d.shape := rfl

end Fragment

-- Relabelling does not change the shape.

theorem Expr.shape_mapAccum (f : σ → α → β × σ) (s : σ) (e : Expr α) :
    (e.mapAccum f s).1.shape = e.shape := by
  have harguments {arguments : List (Argument (Expr α))}
      (h : ∀ a ∈ arguments, ∀ s, (a.value.mapAccum f s).1.shape = a.value.shape) (s : σ) :
      ((mapAccumArguments f s arguments).1.map fun a =>
          (⟨a.label, a.value.shape⟩ : Argument (Expr Unit))) =
        arguments.map fun a => ⟨a.label, a.value.shape⟩ := by
    rw [mapAccumArguments_eq]
    refine map_accumulate (fun a ha s => ?_) s
    rw [mapAccumArgument, h a ha s]
  induction e using Expr.induction generalizing s with
  | literal value => rfl
  | reference name payload => rfl
  | conditional condition thenBranch elseBranch hc ht he =>
      simp only [mapAccum, shape_conditional, hc, ht, he]
  | loop element collection body hc hb => simp only [mapAccum, shape_loop, hc, hb]
  | call name arguments ih =>
      simp only [mapAccum, shape_call, harguments fun a ha s => ih a ha s]
  | method base name arguments hb ih =>
      simp only [mapAccum, shape_method, hb, harguments fun a ha s => ih a ha s]
  | binary left operator right hl hr => simp only [mapAccum, shape_binary, hl, hr]
  | property base name ih => simp only [mapAccum, shape_property, ih]
  | inline name type initializer ih => simp only [mapAccum, shape_inline, ih]
  | array elements ih =>
      simp only [mapAccum, shape_array, mapAccumElements_eq,
        map_accumulate fun e he s => ih e he s]

theorem Expr.shape_mapAccumOption (f : σ → α → β × σ) (s : σ) (value : Option (Expr α)) :
    (mapAccumOption f s value).1.map shape = value.map shape := by
  cases value with
  | none => rfl
  | some value => simp only [mapAccumOption, Option.map_some, shape_mapAccum]

namespace Stmt

private theorem shape_mapAccum_body {f : σ → α → β × σ} {body : List (Stmt α)}
    (h : ∀ stmt ∈ body, ∀ s, (stmt.mapAccum f s).1.shape = stmt.shape) (s : σ) :
    (mapAccumList f s body).1.map shape = body.map shape := by
  rw [mapAccumList_eq]
  exact map_accumulate h s

theorem shape_mapAccum (f : σ → α → β × σ) (s : σ) (stmt : Stmt α) :
    (stmt.mapAccum f s).1.shape = stmt.shape := by
  induction stmt using Stmt.induction generalizing s with
  | bind binding name type initializer =>
      simp only [mapAccum, shape_bind, Expr.shape_mapAccum]
  | guard condition elseBody ih =>
      simp only [mapAccum, shape_guard, Expr.shape_mapAccum,
        shape_mapAccum_body fun stmt hstmt s => ih stmt hstmt s]
  | branch condition thenBody elseBody ht he =>
      simp only [mapAccum, shape_branch, Expr.shape_mapAccum,
        shape_mapAccum_body fun stmt hstmt s => ht stmt hstmt s]
      cases elseBody with
      | none => rfl
      | some elseBody =>
          simp only [mapAccumOption, Option.map_some,
            shape_mapAccum_body fun stmt hstmt s => he elseBody rfl stmt hstmt s]
  | returns value => simp only [mapAccum, shape_returns, Expr.shape_mapAccumOption]
  | throws error => simp only [mapAccum, shape_throws, Expr.shape_mapAccum]
  | defer body ih =>
      simp only [mapAccum, shape_defer, shape_mapAccum_body fun stmt hstmt s => ih stmt hstmt s]
  | expression value => simp only [mapAccum, shape_expression, Expr.shape_mapAccum]

theorem shape_mapAccumList (f : σ → α → β × σ) (s : σ) (body : List (Stmt α)) :
    (mapAccumList f s body).1.map shape = body.map shape :=
  shape_mapAccum_body (fun stmt _ s => stmt.shape_mapAccum f s) s

end Stmt

theorem Decl.shape_mapAccum (f : σ → α → β × σ) (s : σ) (d : Decl α) :
    (d.mapAccum f s).1.shape = d.shape := by
  have hmembers {members : List (Decl α)}
      (h : ∀ d ∈ members, ∀ s, (d.mapAccum f s).1.shape = d.shape) (s : σ) :
      (mapAccumList f s members).1.map shape = members.map shape := by
    rw [mapAccumList_eq]
    exact map_accumulate h s
  induction d using Decl.induction generalizing s with
  | function d => simp only [mapAccum, shape_function, Stmt.shape_mapAccumList]
  | property d => simp only [mapAccum, shape_property, Expr.shape_mapAccumOption]
  | computed d =>
      obtain ⟨name, type, isStatic, getter, setter⟩ := d
      simp only [mapAccum, shape_computed, Stmt.shape_mapAccumList]
      cases setter with
      | none => rfl
      | some setter =>
          simp only [Setter.mapAccumOption, Option.map_some, Setter.shape,
            Stmt.shape_mapAccumList]
  | extension d ih => simp only [mapAccum, shape_extension, hmembers fun m hm s => ih m hm s]
  | struct d ih => simp only [mapAccum, shape_struct, hmembers fun m hm s => ih m hm s]
  | initializer d => simp only [mapAccum, shape_initializer, Stmt.shape_mapAccumList]

theorem Fragment.shape_mapAccum (f : σ → α → β × σ) (s : σ) (t : Fragment α) :
    (t.mapAccum f s).1.shape = t.shape := by
  cases t with
  | expr e => simp only [mapAccum, shape_expr, e.shape_mapAccum]
  | stmt stmt => simp only [mapAccum, shape_stmt, stmt.shape_mapAccum]
  | decl d => simp only [mapAccum, shape_decl, d.shape_mapAccum]

end SwiftSource

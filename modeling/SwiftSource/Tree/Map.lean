import SwiftSource.Tree.Fragment

namespace SwiftSource

-- Relabelling with a state: `f` takes the state and a payload to the new payload and the
-- next state. Payloads are met from left to right.

variable {α β σ : Type}

namespace Expr

mutual

def mapAccum (f : σ → α → β × σ) (s : σ) : Expr α → Expr β × σ
  | .literal value => (.literal value, s)
  | .variable name payload =>
    let p := f s payload
    (.variable name p.1, p.2)
  | .conditional condition thenBranch elseBranch =>
    let c := condition.mapAccum f s
    let t := thenBranch.mapAccum f c.2
    let e := elseBranch.mapAccum f t.2
    (.conditional c.1 t.1 e.1, e.2)
  | .loop element collection body =>
    let c := collection.mapAccum f s
    let b := body.mapAccum f c.2
    (.loop element c.1 b.1, b.2)
  | .call name arguments =>
    let as := mapAccumArguments f s arguments
    (.call name as.1, as.2)
  | .method base name arguments =>
    let b := base.mapAccum f s
    let as := mapAccumArguments f b.2 arguments
    (.method b.1 name as.1, as.2)
  | .binary left operator right =>
    let l := left.mapAccum f s
    let r := right.mapAccum f l.2
    (.binary l.1 operator r.1, r.2)
  | .property base name =>
    let b := base.mapAccum f s
    (.property b.1 name, b.2)
  | .inline name type initializer =>
    let i := initializer.mapAccum f s
    (.inline name type i.1, i.2)
  | .array elements =>
    let es := mapAccumElements f s elements
    (.array es.1, es.2)

def mapAccumArguments (f : σ → α → β × σ) (s : σ) :
    List (Argument (Expr α)) → List (Argument (Expr β)) × σ
  | [] => ([], s)
  | ⟨label, value⟩ :: rest =>
    let v := value.mapAccum f s
    let r := mapAccumArguments f v.2 rest
    (⟨label, v.1⟩ :: r.1, r.2)

def mapAccumElements (f : σ → α → β × σ) (s : σ) : List (Expr α) → List (Expr β) × σ
  | [] => ([], s)
  | value :: rest =>
    let v := value.mapAccum f s
    let r := mapAccumElements f v.2 rest
    (v.1 :: r.1, r.2)

end

end Expr

def Expr.mapAccumOption (f : σ → α → β × σ) (s : σ) : Option (Expr α) → Option (Expr β) × σ
  | none => (none, s)
  | some value =>
    let v := value.mapAccum f s
    (some v.1, v.2)

namespace Stmt

mutual

def mapAccum (f : σ → α → β × σ) (s : σ) : Stmt α → Stmt β × σ
  | .bind binding name type initializer =>
    let i := initializer.mapAccum f s
    (.bind binding name type i.1, i.2)
  | .guard condition elseBody =>
    let c := condition.mapAccum f s
    let b := mapAccumList f c.2 elseBody
    (.guard c.1 b.1, b.2)
  | .branch condition thenBody elseBody =>
    let c := condition.mapAccum f s
    let t := mapAccumList f c.2 thenBody
    let e := mapAccumOption f t.2 elseBody
    (.branch c.1 t.1 e.1, e.2)
  | .returns value =>
    let v := Expr.mapAccumOption f s value
    (.returns v.1, v.2)
  | .throws error =>
    let e := error.mapAccum f s
    (.throws e.1, e.2)
  | .defer body =>
    let b := mapAccumList f s body
    (.defer b.1, b.2)
  | .expression value =>
    let v := value.mapAccum f s
    (.expression v.1, v.2)

def mapAccumList (f : σ → α → β × σ) (s : σ) : List (Stmt α) → List (Stmt β) × σ
  | [] => ([], s)
  | stmt :: rest =>
    let x := stmt.mapAccum f s
    let r := mapAccumList f x.2 rest
    (x.1 :: r.1, r.2)

def mapAccumOption (f : σ → α → β × σ) (s : σ) :
    Option (List (Stmt α)) → Option (List (Stmt β)) × σ
  | none => (none, s)
  | some body =>
    let b := mapAccumList f s body
    (some b.1, b.2)

end

end Stmt

def Setter.mapAccumOption (f : σ → α → β × σ) (s : σ) : Option (Setter α) → Option (Setter β) × σ
  | none => (none, s)
  | some ⟨parameter, body⟩ =>
    let b := Stmt.mapAccumList f s body
    (some ⟨parameter, b.1⟩, b.2)

namespace Decl

mutual

def mapAccum (f : σ → α → β × σ) (s : σ) : Decl α → Decl β × σ
  | .function d =>
    let b := Stmt.mapAccumList f s d.body
    (.function { d with body := b.1 }, b.2)
  | .property d =>
    let i := Expr.mapAccumOption f s d.initializer
    (.property { d with initializer := i.1 }, i.2)
  | .computed d =>
    let g := Stmt.mapAccumList f s d.getter
    let t := Setter.mapAccumOption f g.2 d.setter
    (.computed { d with getter := g.1, setter := t.1 }, t.2)
  | .extension ⟨type, conformances, members⟩ =>
    let ms := mapAccumList f s members
    (.extension ⟨type, conformances, ms.1⟩, ms.2)
  | .struct ⟨access, name, conformances, members⟩ =>
    let ms := mapAccumList f s members
    (.struct ⟨access, name, conformances, ms.1⟩, ms.2)
  | .initializer d =>
    let b := Stmt.mapAccumList f s d.body
    (.initializer { d with body := b.1 }, b.2)

def mapAccumList (f : σ → α → β × σ) (s : σ) : List (Decl α) → List (Decl β) × σ
  | [] => ([], s)
  | decl :: rest =>
    let x := decl.mapAccum f s
    let r := mapAccumList f x.2 rest
    (x.1 :: r.1, r.2)

end

end Decl

def Fragment.mapAccum (f : σ → α → β × σ) (s : σ) : Fragment α → Fragment β × σ
  | .expr e =>
    let r := e.mapAccum f s
    (.expr r.1, r.2)
  | .stmt t =>
    let r := t.mapAccum f s
    (.stmt r.1, r.2)
  | .decl d =>
    let r := d.mapAccum f s
    (.decl r.1, r.2)

end SwiftSource

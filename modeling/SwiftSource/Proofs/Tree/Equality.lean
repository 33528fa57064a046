import Mathlib.Data.List.Forall2
import SwiftSource.Proofs.Tree.Induction
import SwiftSource.Proofs.Tree.Position
import SwiftSource.Tree.Equality

namespace SwiftSource

variable {α : Type}

section Options

variable {ρ ρ' : Type} {r r' : ρ → ρ' → Prop}

@[simp]
theorem rel_none : Option.Rel r none none :=
  .none

@[simp]
theorem rel_some_iff {x : ρ} {y : ρ'} : Option.Rel r (some x) (some y) ↔ r x y := by
  constructor
  · rintro ⟨h⟩
    exact h
  · exact .some

theorem rel_congr {o : Option ρ} {o' : Option ρ'} (h : ∀ x, o = some x → ∀ y, r x y ↔ r' x y) :
    Option.Rel r o o' ↔ Option.Rel r' o o' := by
  cases o with
  | none =>
      cases o' with
      | none => exact iff_of_true .none .none
      | some y => exact iff_of_false (fun h => nomatch h) (fun h => nomatch h)
  | some x =>
      cases o' with
      | none => exact iff_of_false (fun h => nomatch h) (fun h => nomatch h)
      | some y => rw [rel_some_iff, rel_some_iff, h x rfl y]

variable {q : ρ → ρ → Prop} {o o' o'' : Option ρ}

theorem rel_refl (hq : ∀ x, q x x) : Option.Rel q o o := by
  cases o with
  | none => exact .none
  | some x => exact .some (hq x)

theorem rel_symm (hq : ∀ x y, q x y → q y x) (h : Option.Rel q o o') : Option.Rel q o' o := by
  cases h with
  | none => exact .none
  | some h => exact .some (hq _ _ h)

theorem rel_trans (hq : ∀ x y z, q x y → q y z → q x z) (h : Option.Rel q o o')
    (h' : Option.Rel q o' o'') : Option.Rel q o o'' := by
  cases h with
  | none => exact h'
  | some h =>
      cases h' with
      | some h' => exact .some (hq _ _ _ h h')

end Options

section Lists

variable {ρ ρ' : Type} {r : ρ → ρ' → Prop}

theorem forall₂_iff_getElem? {xs : List ρ} {ys : List ρ'} :
    (∀ index : Nat, Option.Rel r xs[index]? ys[index]?) ↔ List.Forall₂ r xs ys := by
  induction xs generalizing ys with
  | nil =>
      cases ys with
      | nil => exact ⟨fun _ => .nil, fun _ _ => .none⟩
      | cons y ys =>
          constructor
          · intro h
            cases h 0
          · intro h
            cases h
  | cons x xs ih =>
      cases ys with
      | nil =>
          constructor
          · intro h
            cases h 0
          · intro h
            cases h
      | cons y ys =>
          rw [List.forall₂_cons, ← ih]
          constructor
          · intro h
            have hfirst : Option.Rel r (some x) (some y) := h 0
            cases hfirst with
            | some hxy => exact ⟨hxy, fun index => h (index + 1)⟩
          · rintro ⟨hxy, hrest⟩ index
            cases index with
            | zero => exact .some hxy
            | succ index => exact hrest index

theorem forall₂_and_iff {p q : ρ → ρ' → Prop} {xs : List ρ} {ys : List ρ'} :
    List.Forall₂ (fun x y => p x y ∧ q x y) xs ys ↔
      List.Forall₂ p xs ys ∧ List.Forall₂ q xs ys := by
  induction xs generalizing ys with
  | nil => cases ys <;> simp
  | cons x xs ih =>
      cases ys with
      | nil => simp
      | cons y ys =>
          simp only [List.forall₂_cons, ih]
          tauto

theorem map_eq_map_iff_forall₂ {κ : Type} {f : ρ → κ} {g : ρ' → κ} {xs : List ρ} {ys : List ρ'} :
    xs.map f = ys.map g ↔ List.Forall₂ (fun x y => f x = g y) xs ys := by
  rw [← List.forall₂_eq_eq_eq, List.forall₂_map_left_iff, List.forall₂_map_right_iff]

theorem beq_iff_forall₂ [BEq ρ] {xs ys : List ρ} :
    (xs == ys) = true ↔ List.Forall₂ (fun x y => (x == y) = true) xs ys := by
  induction xs generalizing ys with
  | nil => cases ys <;> simp
  | cons x xs ih => cases ys <;> simp [ih]

private theorem lookup_eq_none_of_notMem {κ γ : Type} [DecidableEq κ] {key : κ}
    {entries : List (κ × γ)} (h : key ∉ entries.map Prod.fst) : entries.lookup key = none := by
  refine List.lookup_eq_none_iff.mpr fun entry hentry => ?_
  have hne : key ≠ entry.1 := by
    rintro rfl
    exact h (List.mem_map_of_mem hentry)
  simpa using hne

-- Lists that are filed under the same keys, each key once.
theorem forall₂_iff_lookup {κ : Type} [DecidableEq κ] {fs : List (κ × List ρ)}
    {gs : List (κ × List ρ')} (hnodup : (fs.map Prod.fst).Nodup)
    (hkeys : fs.map Prod.fst = gs.map Prod.fst) :
    List.Forall₂ (fun f g => f.1 = g.1 ∧ List.Forall₂ r f.2 g.2) fs gs ↔
      ∀ key, List.Forall₂ r ((fs.lookup key).getD []) ((gs.lookup key).getD []) := by
  induction fs generalizing gs with
  | nil =>
      have hgs : gs = [] := List.map_eq_nil_iff.mp hkeys.symm
      simp [hgs]
  | cons f fs ih =>
      obtain ⟨key, xs⟩ := f
      cases gs with
      | nil => cases hkeys
      | cons g gs =>
          obtain ⟨key', ys⟩ := g
          obtain ⟨rfl, htail⟩ := List.cons.inj hkeys
          obtain ⟨hfresh, hnodup⟩ := List.nodup_cons.mp hnodup
          rw [List.forall₂_cons, ih hnodup htail]
          constructor
          · rintro ⟨⟨-, hfirst⟩, hrest⟩ other
            by_cases h : other = key
            · simpa [List.lookup_cons, h] using hfirst
            · simpa [List.lookup_cons, beq_eq_false_iff_ne.mpr h] using hrest other
          · intro hall
            refine ⟨⟨rfl, by simpa [List.lookup_cons] using hall key⟩, fun other => ?_⟩
            by_cases h : other = key
            · rw [h, lookup_eq_none_of_notMem hfresh, lookup_eq_none_of_notMem (htail ▸ hfresh)]
              exact .nil
            · simpa [List.lookup_cons, beq_eq_false_iff_ne.mpr h] using hall other

end Lists

-- What a node shows by itself. The trees in it are left out: of arguments the labels are left,
-- and of an optional part whether it is there.

namespace Expr

-- Holds the place of a tree that is left out.
def hole : Expr Unit := .literal .nil

def trim : Expr α → Expr Unit
  | .literal value => .literal value
  | .variable name _ => .variable name ()
  | .conditional _ _ _ => .conditional hole hole hole
  | .loop element _ _ => .loop element hole hole
  | .call name arguments => .call name (arguments.map fun a => ⟨a.label, hole⟩)
  | .method _ name arguments => .method hole name (arguments.map fun a => ⟨a.label, hole⟩)
  | .binary _ operator _ => .binary hole operator hole
  | .property _ name => .property hole name
  | .inline name type _ => .inline name type hole
  | .array _ => .array []

end Expr

def Stmt.trim : Stmt α → Stmt Unit
  | .bind binding name type _ => .bind binding name type Expr.hole
  | .guard _ _ => .guard Expr.hole []
  | .branch _ _ elseBody => .branch Expr.hole [] (elseBody.map fun _ => [])
  | .returns value => .returns (value.map fun _ => Expr.hole)
  | .throws _ => .throws Expr.hole
  | .defer _ => .defer []
  | .expression _ => .expression Expr.hole

def Decl.trim : Decl α → Decl Unit
  | .function d =>
    .function ⟨d.access, d.name, d.parameters, d.isAsync, d.canThrow, d.returnType, []⟩
  | .property d =>
    .property ⟨d.access, d.name, d.type, d.isStatic, d.binding,
      d.initializer.map fun _ => Expr.hole⟩
  | .computed d =>
    .computed ⟨d.name, d.type, d.isStatic, [], d.setter.map fun s => ⟨s.parameter, []⟩⟩
  | .extension d => .extension ⟨d.type, d.conformances, []⟩
  | .struct d => .struct ⟨d.access, d.name, d.conformances, []⟩
  | .initializer d => .initializer ⟨d.access, d.parameters, d.canThrow, []⟩

namespace Fragment

def trim : Fragment α → Fragment Unit
  | .expr e => .expr e.trim
  | .stmt s => .stmt s.trim
  | .decl d => .decl d.trim

-- The trees inside, field by field.
def FieldsRel (r : Fragment α → Fragment α → Prop) (t u : Fragment α) : Prop :=
  List.Forall₂ (fun f g => f.1 = g.1 ∧ List.Forall₂ r f.2 g.2) t.fields u.fields

theorem fieldsRel_iff {r : Fragment α → Fragment α → Prop} {t u : Fragment α}
    (h : t.fields.map Prod.fst = u.fields.map Prod.fst) :
    FieldsRel r t u ↔ ∀ place, Option.Rel r (t.child? place) (u.child? place) := by
  rw [FieldsRel, forall₂_iff_lookup t.nodup_fields h]
  simp only [← forall₂_iff_getElem?, child?, Prod.forall]

-- The names of the fields show in a node by itself.
theorem fields_trim (t : Fragment α) : t.trim.fields.map Prod.fst = t.fields.map Prod.fst := by
  cases t with
  | expr e => cases e <;> rfl
  | stmt s => cases s <;> rfl
  | decl d => cases d <;> rfl

variable [BEq α]

instance : BEq (Fragment α) where
  beq
    | .expr e, .expr e' => e == e'
    | .stmt s, .stmt s' => s == s'
    | .decl d, .decl d' => d == d'
    | _, _ => false

-- Two nodes that show the same, one of them perhaps with another payload that counts as equal.
structure Agree (t u : Fragment α) : Prop where
  trim_eq : t.trim = u.trim
  payload_eq : Option.Rel (fun a b : α => (a == b) = true) t.payload? u.payload?

-- At every position there are two nodes that agree, or none at all.
def Coincide (t u : Fragment α) : Prop :=
  ∀ path : List Place, Option.Rel Agree (t.node? path) (u.node? path)

end Fragment

section Nodes

variable [BEq α]

-- The equality of lists and optional parts is the general one, given that of the trees in them.

instance : BEq (Argument (Expr α)) where
  beq a a' := a.label == a'.label && a.value == a'.value

theorem Argument.beq_eq (a a' : Argument (Expr α)) :
    (a == a') = (a.label == a'.label && a.value == a'.value) := rfl

namespace Expr

@[simp]
theorem beq_eq (e e' : Expr α) : e.beq e' = (e == e') := rfl

@[simp]
theorem beqArguments_eq (as as' : List (Argument (Expr α))) :
    beqArguments as as' = (as == as') := by
  induction as generalizing as' with
  | nil => cases as' <;> simp [beqArguments]
  | cons a as ih =>
      cases as' with
      | nil => simp [beqArguments]
      | cons a' as' => simp [beqArguments, ih, Argument.beq_eq]

@[simp]
theorem beqElements_eq (es es' : List (Expr α)) : beqElements es es' = (es == es') := by
  induction es generalizing es' with
  | nil => cases es' <;> simp [beqElements]
  | cons e es ih =>
      cases es' with
      | nil => simp [beqElements]
      | cons e' es' => simp [beqElements, ih]

end Expr

namespace Stmt

@[simp]
theorem beq_eq (s s' : Stmt α) : s.beq s' = (s == s') := rfl

@[simp]
theorem beqList_eq (ss ss' : List (Stmt α)) : beqList ss ss' = (ss == ss') := by
  induction ss generalizing ss' with
  | nil => cases ss' <;> simp [beqList]
  | cons s ss ih =>
      cases ss' with
      | nil => simp [beqList]
      | cons s' ss' => simp [beqList, ih]

@[simp]
theorem beqOption_eq (body body' : Option (List (Stmt α))) :
    beqOption body body' = (body == body') := by
  cases body <;> cases body' <;> simp [beqOption]

end Stmt

theorem FunctionDecl.beq_eq (d d' : FunctionDecl α) :
    (d == d') = (d.access == d'.access && d.name == d'.name && d.parameters == d'.parameters &&
      d.isAsync == d'.isAsync && d.canThrow == d'.canThrow && d.returnType == d'.returnType &&
      d.body == d'.body) := rfl

theorem PropertyDecl.beq_eq (d d' : PropertyDecl α) :
    (d == d') = (d.access == d'.access && d.name == d'.name && d.type == d'.type &&
      d.isStatic == d'.isStatic && d.binding == d'.binding &&
      d.initializer == d'.initializer) := rfl

theorem Setter.beq_eq (d d' : Setter α) :
    (d == d') = (d.parameter == d'.parameter && d.body == d'.body) := rfl

theorem ComputedDecl.beq_eq (d d' : ComputedDecl α) :
    (d == d') = (d.name == d'.name && d.type == d'.type && d.isStatic == d'.isStatic &&
      d.getter == d'.getter && d.setter == d'.setter) := rfl

theorem InitializerDecl.beq_eq (d d' : InitializerDecl α) :
    (d == d') = (d.access == d'.access && d.parameters == d'.parameters &&
      d.canThrow == d'.canThrow && d.body == d'.body) := rfl

namespace Decl

@[simp]
theorem beq_eq (d d' : Decl α) : d.beq d' = (d == d') := rfl

@[simp]
theorem beqList_eq (ds ds' : List (Decl α)) : beqList ds ds' = (ds == ds') := by
  induction ds generalizing ds' with
  | nil => cases ds' <;> simp [beqList]
  | cons d ds ih =>
      cases ds' with
      | nil => simp [beqList]
      | cons d' ds' => simp [beqList, ih]

end Decl

namespace Fragment

theorem agree_iff {t u : Fragment α} :
    Agree t u ↔ t.trim = u.trim ∧
      Option.Rel (fun a b : α => (a == b) = true) t.payload? u.payload? :=
  ⟨fun h => ⟨h.trim_eq, h.payload_eq⟩, fun h => ⟨h.1, h.2⟩⟩

@[simp]
theorem beq_expr (e e' : Expr α) : (Fragment.expr e == .expr e') = (e == e') := rfl

@[simp]
theorem beq_stmt (s s' : Stmt α) : (Fragment.stmt s == .stmt s') = (s == s') := rfl

@[simp]
theorem beq_decl (d d' : Decl α) : (Fragment.decl d == .decl d') = (d == d') := rfl

-- Two trees are equal if they agree at the top and their parts are equal.

-- Nodes of different kinds are not compared any further, and show the difference by themselves.
theorem iff_of_trim_ne {t u : Fragment α} {same : Bool} {parts : Prop} (hsame : same = false)
    (htrim : t.trim ≠ u.trim) : same = true ↔ Agree t u ∧ parts := by
  apply iff_of_false
  · rw [hsame]
    exact Bool.false_ne_true
  · intro h
    exact htrim h.1.trim_eq

attribute [local simp] trim Expr.trim Stmt.trim Decl.trim payload? fields agree_iff FieldsRel
  map_eq_map_iff_forall₂ beq_iff_forall₂ forall₂_and_iff Argument.beq_eq and_assoc

theorem beq_expr_iff (e e' : Expr α) :
    (e == e') = true ↔ Agree (.expr e) (.expr e') ∧
      FieldsRel (fun t u => (t == u) = true) (.expr e) (.expr e') := by
  rw [← Expr.beq_eq]
  cases e with
  | literal value =>
      cases e' with
      | literal value' => simp [Expr.beq]
      | _ => exact iff_of_trim_ne rfl nofun
  | «variable» name payload =>
      cases e' with
      | «variable» name' payload' => simp [Expr.beq]
      | _ => exact iff_of_trim_ne rfl nofun
  | conditional condition thenBranch elseBranch =>
      cases e' with
      | conditional condition' thenBranch' elseBranch' => simp [Expr.beq]
      | _ => exact iff_of_trim_ne rfl nofun
  | loop element collection body =>
      cases e' with
      | loop element' collection' body' => simp [Expr.beq]
      | _ => exact iff_of_trim_ne rfl nofun
  | call name arguments =>
      cases e' with
      | call name' arguments' => simp [Expr.beq]
      | _ => exact iff_of_trim_ne rfl nofun
  | method base name arguments =>
      cases e' with
      | method base' name' arguments' => simp [Expr.beq, and_left_comm]
      | _ => exact iff_of_trim_ne rfl nofun
  | binary left operator right =>
      cases e' with
      | binary left' operator' right' => simp [Expr.beq, and_left_comm]
      | _ => exact iff_of_trim_ne rfl nofun
  | property base name =>
      cases e' with
      | property base' name' => simp [Expr.beq, and_comm]
      | _ => exact iff_of_trim_ne rfl nofun
  | inline name type initializer =>
      cases e' with
      | inline name' type' initializer' => simp [Expr.beq]
      | _ => exact iff_of_trim_ne rfl nofun
  | array elements =>
      cases e' with
      | array elements' => simp [Expr.beq]
      | _ => exact iff_of_trim_ne rfl nofun

theorem beq_stmt_iff (s s' : Stmt α) :
    (s == s') = true ↔ Agree (.stmt s) (.stmt s') ∧
      FieldsRel (fun t u => (t == u) = true) (.stmt s) (.stmt s') := by
  rw [← Stmt.beq_eq]
  cases s with
  | bind binding name type initializer =>
      cases s' with
      | bind binding' name' type' initializer' => simp [Stmt.beq]
      | _ => exact iff_of_trim_ne rfl nofun
  | guard condition elseBody =>
      cases s' with
      | guard condition' elseBody' => simp [Stmt.beq]
      | _ => exact iff_of_trim_ne rfl nofun
  | branch condition thenBody elseBody =>
      cases s' with
      | branch condition' thenBody' elseBody' =>
          cases elseBody <;> cases elseBody' <;> simp [Stmt.beq]
      | _ => exact iff_of_trim_ne rfl nofun
  | returns value =>
      cases s' with
      | returns value' => cases value <;> cases value' <;> simp [Stmt.beq]
      | _ => exact iff_of_trim_ne rfl nofun
  | throws error =>
      cases s' with
      | throws error' => simp [Stmt.beq]
      | _ => exact iff_of_trim_ne rfl nofun
  | defer body =>
      cases s' with
      | defer body' => simp [Stmt.beq]
      | _ => exact iff_of_trim_ne rfl nofun
  | expression value =>
      cases s' with
      | expression value' => simp [Stmt.beq]
      | _ => exact iff_of_trim_ne rfl nofun

theorem beq_decl_iff (d d' : Decl α) :
    (d == d') = true ↔ Agree (.decl d) (.decl d') ∧
      FieldsRel (fun t u => (t == u) = true) (.decl d) (.decl d') := by
  rw [← Decl.beq_eq]
  cases d with
  | function d =>
      cases d' with
      | function d' => simp [Decl.beq, FunctionDecl.beq_eq]
      | _ => exact iff_of_trim_ne rfl nofun
  | property d =>
      cases d' with
      | property d' =>
          obtain ⟨access, name, type, isStatic, binding, initializer⟩ := d
          obtain ⟨access', name', type', isStatic', binding', initializer'⟩ := d'
          cases initializer <;> cases initializer' <;> simp [Decl.beq, PropertyDecl.beq_eq]
      | _ => exact iff_of_trim_ne rfl nofun
  | computed d =>
      cases d' with
      | computed d' =>
          obtain ⟨name, type, isStatic, getter, setter⟩ := d
          obtain ⟨name', type', isStatic', getter', setter'⟩ := d'
          cases setter <;> cases setter' <;>
            simp [Decl.beq, ComputedDecl.beq_eq, ComputedDecl.setterBody, Setter.beq_eq,
              and_left_comm]
      | _ => exact iff_of_trim_ne rfl nofun
  | extension d =>
      cases d' with
      | extension d' => simp [Decl.beq]
      | _ => exact iff_of_trim_ne rfl nofun
  | struct d =>
      cases d' with
      | struct d' => simp [Decl.beq]
      | _ => exact iff_of_trim_ne rfl nofun
  | initializer d =>
      cases d' with
      | initializer d' => simp [Decl.beq, InitializerDecl.beq_eq]
      | _ => exact iff_of_trim_ne rfl nofun

theorem beq_iff_agree {t u : Fragment α} :
    (t == u) = true ↔ Agree t u ∧ FieldsRel (fun t u => (t == u) = true) t u := by
  cases t with
  | expr e =>
      cases u with
      | expr e' => exact beq_expr_iff e e'
      | _ => exact iff_of_trim_ne rfl nofun
  | stmt s =>
      cases u with
      | stmt s' => exact beq_stmt_iff s s'
      | _ => exact iff_of_trim_ne rfl nofun
  | decl d =>
      cases u with
      | decl d' => exact beq_decl_iff d d'
      | _ => exact iff_of_trim_ne rfl nofun

theorem Agree.fields_eq {t u : Fragment α} (h : Agree t u) :
    t.fields.map Prod.fst = u.fields.map Prod.fst := by
  rw [← fields_trim, h.trim_eq, fields_trim]

-- The same for the positions: what coincides agrees at the top and coincides below.

theorem rel_coincide_iff {o o' : Option (Fragment α)} :
    Option.Rel Coincide o o' ↔ ∀ path : List Place,
      Option.Rel Agree (o.bind fun t => t.node? path) (o'.bind fun u => u.node? path) := by
  cases o with
  | none =>
      cases o' with
      | none => exact iff_of_true .none fun _ => .none
      | some u => exact iff_of_false (fun h => nomatch h) (fun h => nomatch h [])
  | some t =>
      cases o' with
      | none => exact iff_of_false (fun h => nomatch h) (fun h => nomatch h [])
      | some u => exact rel_some_iff

theorem coincide_iff_agree {t u : Fragment α} :
    Coincide t u ↔ Agree t u ∧ ∀ place, Option.Rel Coincide (t.child? place) (u.child? place) := by
  constructor
  · intro h
    exact ⟨rel_some_iff.mp (h []), fun place => rel_coincide_iff.mpr fun path => h (place :: path)⟩
  · rintro ⟨htop, hbelow⟩ path
    cases path with
    | nil => exact .some htop
    | cons place path => exact rel_coincide_iff.mp (hbelow place) path

theorem beq_iff_coincide {t u : Fragment α} : (t == u) = true ↔ Coincide t u := by
  induction t using Fragment.induction generalizing u with
  | step t ih =>
      rw [beq_iff_agree, coincide_iff_agree]
      refine and_congr_right fun h => ?_
      rw [fieldsRel_iff h.fields_eq]
      refine forall_congr' fun place => rel_congr fun child hchild other => ?_
      exact ih (place, child) (child?_eq_some_iff.mp hchild)

end Fragment

end Nodes

section Equivalence

variable [BEq α] [EquivBEq α]

namespace Fragment

theorem Agree.refl (t : Fragment α) : Agree t t :=
  ⟨rfl, rel_refl fun _ => BEq.rfl⟩

theorem Agree.symm {t u : Fragment α} (h : Agree t u) : Agree u t :=
  ⟨h.trim_eq.symm, rel_symm (fun _ _ => BEq.symm) h.payload_eq⟩

theorem Agree.trans {t u v : Fragment α} (h : Agree t u) (h' : Agree u v) : Agree t v :=
  ⟨h.trim_eq.trans h'.trim_eq, rel_trans (fun _ _ _ => BEq.trans) h.payload_eq h'.payload_eq⟩

instance : EquivBEq (Fragment α) where
  rfl := beq_iff_coincide.mpr fun _ => rel_refl Agree.refl
  symm h := beq_iff_coincide.mpr fun path =>
    rel_symm (fun _ _ => Agree.symm) (beq_iff_coincide.mp h path)
  trans h h' := beq_iff_coincide.mpr fun path =>
    rel_trans (fun _ _ _ => Agree.trans) (beq_iff_coincide.mp h path) (beq_iff_coincide.mp h' path)

end Fragment

instance : EquivBEq (Expr α) where
  rfl {e} := BEq.rfl (a := Fragment.expr e)
  symm {e e'} := BEq.symm (a := Fragment.expr e) (b := .expr e')
  trans {e e' e''} := BEq.trans (a := Fragment.expr e) (b := .expr e') (c := .expr e'')

instance : EquivBEq (Stmt α) where
  rfl {s} := BEq.rfl (a := Fragment.stmt s)
  symm {s s'} := BEq.symm (a := Fragment.stmt s) (b := .stmt s')
  trans {s s' s''} := BEq.trans (a := Fragment.stmt s) (b := .stmt s') (c := .stmt s'')

instance : EquivBEq (Decl α) where
  rfl {d} := BEq.rfl (a := Fragment.decl d)
  symm {d d'} := BEq.symm (a := Fragment.decl d) (b := .decl d')
  trans {d d' d''} := BEq.trans (a := Fragment.decl d) (b := .decl d') (c := .decl d'')

end Equivalence

end SwiftSource

import Mathlib.Data.List.Nodup
import SwiftSource.Proofs.Tree.Outline

namespace SwiftSource

variable {α : Type}

-- The parts of a tree that are trees themselves.
inductive Field where
  | arguments
  | base
  | body
  | collection
  | condition
  | elements
  | elseBody
  | elseBranch
  | error
  | getter
  | initializer
  | left
  | members
  | right
  | setter
  | thenBody
  | thenBranch
  | value
deriving DecidableEq

-- Where a tree stands in the one around it: a field, and the number of the tree there.
abbrev Place := Field × Nat

namespace Fragment

-- What each constructor holds.
def fields : Fragment α → List (Field × List (Fragment α))
  | .expr (.literal _) => []
  | .expr (.variable _ _) => []
  | .expr (.conditional condition thenBranch elseBranch) =>
    [(.condition, [.expr condition]), (.thenBranch, [.expr thenBranch]),
      (.elseBranch, [.expr elseBranch])]
  | .expr (.loop _ collection body) =>
    [(.collection, [.expr collection]), (.body, [.expr body])]
  | .expr (.call _ arguments) => [(.arguments, arguments.map fun a => .expr a.value)]
  | .expr (.method base _ arguments) =>
    [(.base, [.expr base]), (.arguments, arguments.map fun a => .expr a.value)]
  | .expr (.binary left _ right) => [(.left, [.expr left]), (.right, [.expr right])]
  | .expr (.property base _) => [(.base, [.expr base])]
  | .expr (.inline _ _ initializer) => [(.initializer, [.expr initializer])]
  | .expr (.array elements) => [(.elements, elements.map .expr)]
  | .stmt (.bind _ _ _ initializer) => [(.initializer, [.expr initializer])]
  | .stmt (.guard condition elseBody) =>
    [(.condition, [.expr condition]), (.elseBody, elseBody.map .stmt)]
  | .stmt (.branch condition thenBody elseBody) =>
    [(.condition, [.expr condition]), (.thenBody, thenBody.map .stmt),
      (.elseBody, (elseBody.getD []).map .stmt)]
  | .stmt (.returns value) => [(.value, value.toList.map .expr)]
  | .stmt (.throws error) => [(.error, [.expr error])]
  | .stmt (.defer body) => [(.body, body.map .stmt)]
  | .stmt (.expression value) => [(.value, [.expr value])]
  | .decl (.function d) => [(.body, d.body.map .stmt)]
  | .decl (.property d) => [(.initializer, d.initializer.toList.map .expr)]
  | .decl (.computed d) => [(.getter, d.getter.map .stmt), (.setter, d.setterBody.map .stmt)]
  | .decl (.extension d) => [(.members, d.members.map .decl)]
  | .decl (.struct d) => [(.members, d.members.map .decl)]
  | .decl (.initializer d) => [(.body, d.body.map .stmt)]

def child? (t : Fragment α) (place : Place) : Option (Fragment α) :=
  ((t.fields.lookup place.1).getD [])[place.2]?

-- The node that is reached along the places, from the top.
def node? (t : Fragment α) : List Place → Option (Fragment α)
  | [] => some t
  | place :: path => (t.child? place).bind fun child => child.node? path

-- All places in a tree, with what stands there.
def children (t : Fragment α) : List (Place × Fragment α) :=
  t.fields.flatMap fun field => field.2.zipIdx.map fun child => ((field.1, child.2), child.1)

theorem nodup_flatMap_of_key {ι κ γ : Type} {key : ι → κ} {f : ι → List γ} {l : List ι}
    (hl : (l.map key).Nodup) (hf : ∀ x ∈ l, (f x).Nodup)
    (hkey : ∀ x x' y, y ∈ f x → y ∈ f x' → key x = key x') : (l.flatMap f).Nodup := by
  have hpairs : l.Pairwise fun x x' => key x ≠ key x' := List.pairwise_map.mp hl
  exact List.nodup_flatMap.mpr
    ⟨hf, hpairs.imp fun hne y hy hy' => hne (hkey _ _ y hy hy')⟩

-- No constructor has two fields of one name.
theorem nodup_fields (t : Fragment α) : (t.fields.map Prod.fst).Nodup := by
  cases t with
  | expr e => cases e <;> simp [fields]
  | stmt s => cases s <;> simp [fields]
  | decl d => cases d <;> simp [fields]

theorem lookup_fields {t : Fragment α} {field : Field} {trees : List (Fragment α)}
    (h : (field, trees) ∈ t.fields) : t.fields.lookup field = some trees := by
  obtain ⟨before, after, hsplit⟩ := List.append_of_mem h
  refine List.lookup_eq_some_iff.mpr ⟨before, after, hsplit, fun other hother => ?_⟩
  have hnodup := t.nodup_fields
  rw [hsplit, List.map_append, List.map_cons] at hnodup
  have hne : other.1 ≠ field := by
    rintro rfl
    exact List.disjoint_of_nodup_append hnodup (List.mem_map_of_mem hother) List.mem_cons_self
  simpa using Ne.symm hne

theorem child?_eq_some_iff {t child : Fragment α} {place : Place} :
    t.child? place = some child ↔ (place, child) ∈ t.children := by
  obtain ⟨field, index⟩ := place
  simp only [child?, children, List.mem_flatMap, List.mem_map, Prod.mk.injEq, Prod.exists,
    List.mem_zipIdx_iff_getElem?]
  constructor
  · intro h
    cases hlookup : t.fields.lookup field with
    | none => simp [hlookup] at h
    | some trees =>
        rw [hlookup, Option.getD_some] at h
        obtain ⟨before, after, hsplit, -⟩ := List.lookup_eq_some_iff.mp hlookup
        have hmem : (field, trees) ∈ t.fields := by simp [hsplit]
        exact ⟨field, trees, hmem, child, index, h, ⟨rfl, rfl⟩, rfl⟩
  · rintro ⟨_, trees, hmem, _, _, hindex, ⟨rfl, rfl⟩, rfl⟩
    rw [lookup_fields hmem, Option.getD_some]
    exact hindex

-- No two children stand in one place.
theorem nodup_children (t : Fragment α) : (t.children.map Prod.fst).Nodup := by
  rw [children, List.map_flatMap]
  refine nodup_flatMap_of_key t.nodup_fields (fun field _ => ?_) ?_
  · have hindices : (field.2.zipIdx.map Prod.snd).Nodup := by
      rw [List.zipIdx_map_snd]
      exact List.nodup_range'
    apply List.Nodup.of_map Prod.snd
    simpa [Function.comp_def] using hindices
  · intro field field' place h h'
    simp only [List.map_map, List.mem_map] at h h'
    obtain ⟨_, _, hplace⟩ := h
    obtain ⟨_, _, hplace'⟩ := h'
    exact (Prod.mk.inj (hplace.trans hplace'.symm)).1

theorem map_children {γ : Type} (f : Fragment α → γ) (t : Fragment α) :
    t.children.map (fun child => f child.2) = t.fields.flatMap fun field => field.2.map f := by
  rw [children, List.map_flatMap]
  refine List.flatMap_congr fun field _ => ?_
  rw [List.map_map, ← List.zipIdx_map_fst 0 field.2, List.map_map]
  simp

-- A visitor goes through the fields in order.
theorem outline_eq (t : Fragment α) :
    t.outline = .entry t (t.children.map fun child => child.2.outline) := by
  rw [map_children outline t]
  cases t with
  | expr e =>
      cases e with
      | call name arguments => simp [fields, outline, Expr.outline_call]
      | method base name arguments => simp [fields, outline, Expr.outline_method]
      | array elements => simp [fields, outline, Expr.outline_array]
      | _ => rfl
  | stmt s =>
      cases s with
      | guard condition elseBody => simp [fields, outline, Stmt.outline_guard]
      | branch condition thenBody elseBody =>
          simp [fields, outline, Stmt.outline_branch, Function.comp_def]
      | returns value => simp [fields, outline, Stmt.outline_returns]
      | defer body => simp [fields, outline, Stmt.outline_defer]
      | _ => rfl
  | decl d =>
      cases d with
      | function d => simp [fields, outline, Decl.outline_function]
      | property d => simp [fields, outline, Decl.outline_property]
      | computed d => simp [fields, outline, Decl.outline_computed, Function.comp_def]
      | extension d => simp [fields, outline, Decl.outline_extension]
      | struct d => simp [fields, outline, Decl.outline_struct]
      | initializer d => simp [fields, outline, Decl.outline_initializer]

@[elab_as_elim]
theorem induction {motive : Fragment α → Prop}
    (step : ∀ t : Fragment α, (∀ child ∈ t.children, motive child.2) → motive t)
    (t : Fragment α) : motive t := by
  have h : ∀ (o : Outline (Fragment α)) (t : Fragment α), t.outline = o → motive t := by
    intro o
    induction o using Outline.induction with
    | entry head parts ih =>
        intro t ht
        refine step t fun child hchild => ih child.2.outline ?_ child.2 rfl
        rw [outline_eq] at ht
        injection ht with _ hparts
        rw [← hparts]
        exact List.mem_map_of_mem hchild
  exact h t.outline t rfl

-- All nodes of a tree, each once and under its path, in the order of a visitor.
structure Enumerates (t : Fragment α) (nodes : List (List Place × Fragment α)) : Prop where
  nodup : (nodes.map Prod.fst).Nodup
  mem_iff : ∀ path u, (path, u) ∈ nodes ↔ t.node? path = some u
  visits_eq : ∀ depth, t.outline.visits (fun _ => false) depth =
    nodes.map fun node => (depth + node.1.length, node.2)

theorem enumerates_step {t : Fragment α}
    {below : Place × Fragment α → List (List Place × Fragment α)}
    (h : ∀ child ∈ t.children, child.2.Enumerates (below child)) :
    t.Enumerates (([], t) :: t.children.flatMap fun child =>
      (below child).map fun node => (child.1 :: node.1, node.2)) := by
  refine ⟨?_, fun path u => ?_, fun depth => ?_⟩
  · rw [List.map_cons, List.nodup_cons, List.map_flatMap]
    refine ⟨by simp, nodup_flatMap_of_key t.nodup_children (fun child hchild => ?_) ?_⟩
    · have hpaths := (h child hchild).nodup.map (List.cons_injective (a := child.1))
      simpa [Function.comp_def] using hpaths
    · intro child child' path hpath hpath'
      simp only [List.map_map, List.mem_map] at hpath hpath'
      obtain ⟨_, _, hcons⟩ := hpath
      obtain ⟨_, _, hcons'⟩ := hpath'
      exact (List.cons.inj (hcons.trans hcons'.symm)).1
  · cases path with
    | nil => simp [node?, eq_comm]
    | cons place path =>
        have hroot : (place :: path, u) ≠ ([], t) := by simp
        simp only [List.mem_cons, hroot, false_or, List.mem_flatMap, List.mem_map, node?,
          Option.bind_eq_some_iff, child?_eq_some_iff]
        constructor
        · rintro ⟨child, hchild, node, hnode, heq⟩
          simp only [Prod.mk.injEq, List.cons.injEq] at heq
          obtain ⟨⟨rfl, rfl⟩, rfl⟩ := heq
          exact ⟨child.2, hchild, ((h child hchild).mem_iff _ _).mp hnode⟩
        · rintro ⟨child, hchild, hnode⟩
          exact ⟨(place, child), hchild, (path, u), ((h _ hchild).mem_iff _ _).mpr hnode, rfl⟩
  · have hparts : t.children.flatMap (fun child =>
        child.2.outline.visits (fun _ => false) (depth + 1)) =
        t.children.flatMap fun child => (below child).map fun node =>
          (depth + (child.1 :: node.1).length, node.2) := by
      refine List.flatMap_congr fun child hchild => ?_
      rw [(h child hchild).visits_eq]
      simp [Nat.add_assoc, Nat.add_comm 1]
    rw [outline_eq, Outline.visits, if_neg Bool.false_ne_true, Outline.visitsList_eq,
      List.flatMap_map, hparts]
    simp [List.map_flatMap, Function.comp_def]

theorem exists_enumerates (t : Fragment α) : ∃ nodes, t.Enumerates nodes := by
  induction t using Fragment.induction with
  | step t ih =>
      choose! below hbelow using ih
      exact ⟨_, enumerates_step hbelow⟩

end Fragment

end SwiftSource

import SwiftSource.Proofs.Tree.Refill

namespace SwiftSource

variable {α β γ σ τ : Type}

-- A function with a state as an action that reads and replaces the state.
def stateful (f : σ → α → β × σ) (a : α) : StateM σ β :=
  fun s => f s a

private theorem mapM_stateful {run : σ → α → β × σ} {act : α → StateM σ β} {xs : List α}
    (h : ∀ x ∈ xs, act x = stateful run x) : xs.mapM act = stateful (accumulate run) xs := by
  induction xs with
  | nil => rfl
  | cons x rest ih =>
      obtain ⟨hx, hrest⟩ := List.forall_mem_cons.mp h
      rw [List.mapM_cons, hx, ih hrest]
      rfl

-- The traversal in a state monad relabels as the map does, and leaves the same state.

theorem Expr.traverse_stateful (f : σ → α → β × σ) (e : Expr α) :
    e.traverse (stateful f) = stateful (mapAccum f) e := by
  have harguments {arguments : List (Argument (Expr α))}
      (h : ∀ a ∈ arguments, a.value.traverse (stateful f) = stateful (mapAccum f) a.value) :
      traverseArguments (stateful f) arguments = stateful (mapAccumArguments f) arguments := by
    have heach : ∀ a ∈ arguments,
        traverseArgument (stateful f) a = stateful (mapAccumArgument f) a := by
      intro a ha
      rw [traverseArgument, h a ha]
      rfl
    rw [traverseArguments_eq, mapM_stateful heach]
    funext s
    exact (mapAccumArguments_eq f s arguments).symm
  induction e using Expr.induction with
  | literal value => rfl
  | reference name payload => rfl
  | conditional condition thenBranch elseBranch hc ht he =>
      rw [traverse, hc, ht, he]
      rfl
  | loop element collection body hc hb =>
      rw [traverse, hc, hb]
      rfl
  | call name arguments ih =>
      rw [traverse, harguments ih]
      rfl
  | method base name arguments hb ih =>
      rw [traverse, hb, harguments ih]
      rfl
  | binary left operator right hl hr =>
      rw [traverse, hl, hr]
      rfl
  | property base name ih =>
      rw [traverse, ih]
      rfl
  | inline name type initializer ih =>
      rw [traverse, ih]
      rfl
  | array elements ih =>
      have helements : traverseElements (stateful f) elements =
          stateful (mapAccumElements f) elements := by
        rw [traverseElements_eq, mapM_stateful ih]
        funext s
        exact (mapAccumElements_eq f s elements).symm
      rw [traverse, helements]
      rfl

theorem Expr.traverseOption_stateful (f : σ → α → β × σ) (value : Option (Expr α)) :
    traverseOption (stateful f) value = stateful (mapAccumOption f) value := by
  cases value with
  | none => rfl
  | some value =>
      rw [traverseOption, value.traverse_stateful]
      rfl

namespace Stmt

private theorem traverse_stateful_body {f : σ → α → β × σ} {body : List (Stmt α)}
    (h : ∀ stmt ∈ body, stmt.traverse (stateful f) = stateful (mapAccum f) stmt) :
    traverseList (stateful f) body = stateful (mapAccumList f) body := by
  rw [traverseList_eq, mapM_stateful h]
  funext s
  exact (mapAccumList_eq f s body).symm

theorem traverse_stateful (f : σ → α → β × σ) (stmt : Stmt α) :
    stmt.traverse (stateful f) = stateful (mapAccum f) stmt := by
  induction stmt using Stmt.induction with
  | bind binding name type initializer =>
      rw [traverse, initializer.traverse_stateful]
      rfl
  | guard condition elseBody ih =>
      rw [traverse, condition.traverse_stateful, traverse_stateful_body ih]
      rfl
  | branch condition thenBody elseBody ht he =>
      rw [traverse, condition.traverse_stateful, traverse_stateful_body ht]
      cases elseBody with
      | none => rfl
      | some elseBody =>
          rw [traverseOption, traverse_stateful_body (he elseBody rfl)]
          rfl
  | returns value =>
      rw [traverse, Expr.traverseOption_stateful]
      rfl
  | throws error =>
      rw [traverse, error.traverse_stateful]
      rfl
  | defer body ih =>
      rw [traverse, traverse_stateful_body ih]
      rfl
  | expression value =>
      rw [traverse, value.traverse_stateful]
      rfl

theorem traverseList_stateful (f : σ → α → β × σ) (body : List (Stmt α)) :
    traverseList (stateful f) body = stateful (mapAccumList f) body :=
  traverse_stateful_body fun stmt _ => stmt.traverse_stateful f

end Stmt

theorem Decl.traverse_stateful (f : σ → α → β × σ) (d : Decl α) :
    d.traverse (stateful f) = stateful (mapAccum f) d := by
  have hmembers {members : List (Decl α)}
      (h : ∀ d ∈ members, d.traverse (stateful f) = stateful (mapAccum f) d) :
      traverseList (stateful f) members = stateful (mapAccumList f) members := by
    rw [traverseList_eq, mapM_stateful h]
    funext s
    exact (mapAccumList_eq f s members).symm
  induction d using Decl.induction with
  | function d =>
      rw [traverse, Stmt.traverseList_stateful]
      rfl
  | property d =>
      rw [traverse, Expr.traverseOption_stateful]
      rfl
  | computed d =>
      obtain ⟨name, type, isStatic, getter, setter⟩ := d
      rw [traverse, Stmt.traverseList_stateful]
      cases setter with
      | none => rfl
      | some setter =>
          rw [Setter.traverseOption, Stmt.traverseList_stateful]
          rfl
  | extension d ih =>
      rw [traverse, hmembers ih]
      rfl
  | struct d ih =>
      rw [traverse, hmembers ih]
      rfl
  | initializer d =>
      rw [traverse, Stmt.traverseList_stateful]
      rfl

namespace Fragment

theorem traverse_stateful (f : σ → α → β × σ) (t : Fragment α) :
    t.traverse (stateful f) = stateful (mapAccum f) t := by
  cases t with
  | expr e =>
      rw [traverse, e.traverse_stateful]
      rfl
  | stmt stmt =>
      rw [traverse, stmt.traverse_stateful]
      rfl
  | decl d =>
      rw [traverse, d.traverse_stateful]
      rfl

theorem run_traverse (f : σ → α → β × σ) (s : σ) (t : Fragment α) :
    (t.traverse (stateful f)).run s = t.mapAccum f s := by
  rw [traverse_stateful]
  rfl

-- What relabelling gives is known from what `f` does to the list of payloads.
theorem mapAccum_eq_iff {f : σ → α → β × σ} {s s' : σ} {t : Fragment α} {u : Fragment β} :
    t.mapAccum f s = (u, s') ↔
      u.shape = t.shape ∧ accumulate f s t.payloads = (u.payloads, s') := by
  rw [accumulate_payloads]
  constructor
  · intro h
    have hshape := t.shape_mapAccum f s
    rw [h] at hshape ⊢
    exact ⟨hshape, rfl⟩
  · -- the result has the shape of `t` whatever `f` is, so its payloads decide
    rintro ⟨hshape, h⟩
    obtain ⟨hpayloads, hstate⟩ := Prod.mk.inj h
    have htree := ext_of_shape ((t.shape_mapAccum f s).trans hshape.symm) hpayloads
    exact Prod.ext htree hstate

theorem mapAccum_identity (s : σ) (t : Fragment α) :
    t.mapAccum (fun s a => (a, s)) s = (t, s) :=
  mapAccum_eq_iff.mpr ⟨rfl, accumulate_identity s t.payloads⟩

theorem mapAccum_andThen (f : σ → α → β × σ) (g : τ → β → γ × τ) (s : σ) (s' : τ)
    (t : Fragment α) :
    t.mapAccum (andThen f g) (s, s') =
      (((t.mapAccum f s).1.mapAccum g s').1, (t.mapAccum f s).2,
        ((t.mapAccum f s).1.mapAccum g s').2) := by
  refine mapAccum_eq_iff.mpr ⟨?_, ?_⟩
  · rw [shape_mapAccum, shape_mapAccum]
  · rw [accumulate_andThen, accumulate_payloads, accumulate_payloads]

theorem mapAccum_recording (f : σ → α → β × σ) (s : σ) (t : Fragment α) :
    t.mapAccum (recording f) (s, []) =
      ((t.mapAccum f s).1, (t.mapAccum f s).2,
        t.payloads.zip (t.mapAccum f s).1.payloads) := by
  refine mapAccum_eq_iff.mpr ⟨t.shape_mapAccum f s, ?_⟩
  rw [accumulate_recording, accumulate_payloads, List.nil_append]

theorem length_payloads_mapAccum (f : σ → α → β × σ) (s : σ) (t : Fragment α) :
    (t.mapAccum f s).1.payloads.length = t.payloads.length := by
  have hlength := length_accumulate f s t.payloads
  rwa [accumulate_payloads] at hlength

end Fragment

-- The map and the traversal hand the payloads to `f` in the order in which a visitor meets
-- them, each once, and put its results in their places.
theorem traversals_agree (f : σ → α → β × σ) (s : σ) (t : Fragment α) :
    (t.traverse (stateful f)).run s = t.mapAccum f s ∧
    (t.mapAccum f s).2 = t.payloads.foldl (fun s a => (f s a).2) s ∧
    ∃ calls : List (α × β),
      t.mapAccum (recording f) (s, []) = ((t.mapAccum f s).1, (t.mapAccum f s).2, calls) ∧
      (t.traverse (stateful (recording f))).run (s, []) =
        ((t.mapAccum f s).1, (t.mapAccum f s).2, calls) ∧
      calls.map Prod.fst = t.payloads ∧ calls.map Prod.snd = (t.mapAccum f s).1.payloads := by
  have hlength := t.length_payloads_mapAccum f s
  refine ⟨t.run_traverse f s, ?_, t.payloads.zip (t.mapAccum f s).1.payloads,
    t.mapAccum_recording f s, ?_, ?_, ?_⟩
  · rw [← accumulate_snd, t.accumulate_payloads]
  · rw [t.run_traverse, t.mapAccum_recording]
  · exact List.map_fst_zip (Nat.le_of_eq hlength.symm)
  · exact List.map_snd_zip (Nat.le_of_eq hlength)

-- The laws of a functor, for functions with a state. Two passes, the second with a state of its
-- own, are one pass in which the two functions take turns.
theorem relabelling_functorial (t : Fragment α) :
    (∀ s : σ, t.mapAccum (fun s a => (a, s)) s = (t, s)) ∧
    (∀ (f : σ → α → β × σ) (g : τ → β → γ × τ) (s : σ) (s' : τ),
      t.mapAccum (andThen f g) (s, s') =
        (((t.mapAccum f s).1.mapAccum g s').1, (t.mapAccum f s).2,
          ((t.mapAccum f s).1.mapAccum g s').2)) ∧
    (∀ s : σ, (t.traverse (stateful fun s a => (a, s))).run s = (t, s)) ∧
    (∀ (f : σ → α → β × σ) (g : τ → β → γ × τ) (s : σ) (s' : τ),
      let first := (t.traverse (stateful f)).run s
      let second := (first.1.traverse (stateful g)).run s'
      (t.traverse (stateful (andThen f g))).run (s, s') = (second.1, first.2, second.2)) := by
  refine ⟨fun s => t.mapAccum_identity s, fun f g s s' => t.mapAccum_andThen f g s s',
    fun s => ?_, fun f g s s' => ?_⟩
  · rw [t.run_traverse, t.mapAccum_identity]
  · simp only [Fragment.run_traverse]
    exact t.mapAccum_andThen f g s s'

end SwiftSource

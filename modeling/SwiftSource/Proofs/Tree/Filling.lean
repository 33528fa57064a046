import SwiftSource.Proofs.Tree.Relabelling

namespace SwiftSource

variable {α β : Type}

-- A function whose state is a list, and which gives back the values of the list one after
-- another. What it does when none is left is open.
def HandsOut (f : List β → α → β × List β) : Prop :=
  ∀ value rest payload, f (value :: rest) payload = (value, rest)

theorem HandsOut.accumulate {f : List β → α → β × List β} (hf : HandsOut f) {as : List α}
    {values : List β} (h : values.length = as.length) : accumulate f values as = (values, []) := by
  induction as generalizing values with
  | nil =>
      have hempty : values = [] := List.length_eq_zero_iff.mp h
      rw [hempty, accumulate_nil]
  | cons a rest ih =>
      obtain ⟨value, values, rfl⟩ := List.exists_cons_of_length_eq_add_one h
      have hrest : values.length = rest.length := by simpa using h
      rw [accumulate_cons, hf, ih hrest]

-- There is a function that hands out values as soon as there is a value.
theorem exists_handsOut (value : β) : ∃ f : List β → α → β × List β, HandsOut f := by
  refine ⟨fun values _ => (values.headD value, values.tail), ?_⟩
  intro value rest payload
  rfl

-- A tree without payloads is a tree over every type of payloads, also over one that has no
-- values. There a function to relabel it with may be missing, so it is built up anew.

private theorem exists_map_eq_map {ρ ρ' κ : Type} {p : ρ' → κ} {q : ρ → κ} {xs : List ρ}
    (h : ∀ x ∈ xs, ∃ y, p y = q x) : ∃ ys : List ρ', ys.map p = xs.map q := by
  induction xs with
  | nil => exact ⟨[], rfl⟩
  | cons x rest ih =>
      obtain ⟨hx, hrest⟩ := List.forall_mem_cons.mp h
      obtain ⟨y, hy⟩ := hx
      obtain ⟨ys, hys⟩ := ih hrest
      exact ⟨y :: ys, by rw [List.map_cons, hy, hys, List.map_cons]⟩

theorem Expr.exists_of_payloads_eq_nil {e : Expr α} (h : e.payloads = []) :
    ∃ e' : Expr β, e'.shape = e.shape := by
  have harguments {arguments : List (Argument (Expr α))}
      (h : ∀ a ∈ arguments, ∃ e' : Expr β, e'.shape = a.value.shape) :
      ∃ arguments' : List (Argument (Expr β)),
        (arguments'.map fun a => (⟨a.label, a.value.shape⟩ : Argument (Expr Unit))) =
          arguments.map fun a => ⟨a.label, a.value.shape⟩ := by
    apply exists_map_eq_map
    intro a ha
    obtain ⟨e', he'⟩ := h a ha
    exact ⟨⟨a.label, e'⟩, by rw [he']⟩
  induction e using Expr.induction with
  | literal value => exact ⟨.literal value, rfl⟩
  | reference name payload => cases h
  | conditional condition thenBranch elseBranch hc ht he =>
      simp only [payloads_conditional, List.append_eq_nil_iff] at h
      obtain ⟨c, hc⟩ := hc h.1
      obtain ⟨t, ht⟩ := ht h.2.1
      obtain ⟨e, he⟩ := he h.2.2
      exact ⟨.conditional c t e, by simp [hc, ht, he]⟩
  | loop element collection body hc hb =>
      simp only [payloads_loop, List.append_eq_nil_iff] at h
      obtain ⟨c, hc⟩ := hc h.1
      obtain ⟨b, hb⟩ := hb h.2
      exact ⟨.loop element c b, by simp [hc, hb]⟩
  | call name arguments ih =>
      simp only [payloads_call, List.flatMap_eq_nil_iff] at h
      obtain ⟨as, has⟩ := harguments fun a ha => ih a ha (h a ha)
      exact ⟨.call name as, by simp [has]⟩
  | method base name arguments hb ih =>
      simp only [payloads_method, List.append_eq_nil_iff, List.flatMap_eq_nil_iff] at h
      obtain ⟨b, hb⟩ := hb h.1
      obtain ⟨as, has⟩ := harguments fun a ha => ih a ha (h.2 a ha)
      exact ⟨.method b name as, by simp [hb, has]⟩
  | binary left operator right hl hr =>
      simp only [payloads_binary, List.append_eq_nil_iff] at h
      obtain ⟨l, hl⟩ := hl h.1
      obtain ⟨r, hr⟩ := hr h.2
      exact ⟨.binary l operator r, by simp [hl, hr]⟩
  | property base name ih =>
      obtain ⟨b, hb⟩ := ih (by simpa using h)
      exact ⟨.property b name, by simp [hb]⟩
  | inline name type initializer ih =>
      obtain ⟨i, hi⟩ := ih (by simpa using h)
      exact ⟨.inline name type i, by simp [hi]⟩
  | array elements ih =>
      simp only [payloads_array, List.flatMap_eq_nil_iff] at h
      obtain ⟨es, hes⟩ := exists_map_eq_map fun e he => ih e he (h e he)
      exact ⟨.array es, by simp [hes]⟩

theorem Expr.exists_option_of_payloads_eq_nil {value : Option (Expr α)}
    (h : value.toList.flatMap payloads = []) :
    ∃ value' : Option (Expr β), value'.map shape = value.map shape := by
  cases value with
  | none => exact ⟨none, rfl⟩
  | some e =>
      obtain ⟨e', he'⟩ := exists_of_payloads_eq_nil (β := β) (e := e) (by simpa using h)
      exact ⟨some e', by rw [Option.map_some, he', Option.map_some]⟩

namespace Stmt

theorem exists_of_payloads_eq_nil {stmt : Stmt α} (h : stmt.payloads = []) :
    ∃ stmt' : Stmt β, stmt'.shape = stmt.shape := by
  induction stmt using Stmt.induction with
  | bind binding name type initializer =>
      obtain ⟨i, hi⟩ :=
        Expr.exists_of_payloads_eq_nil (β := β) (e := initializer) (by simpa using h)
      exact ⟨.bind binding name type i, by simp [hi]⟩
  | guard condition elseBody ih =>
      simp only [payloads_guard, List.append_eq_nil_iff, List.flatMap_eq_nil_iff] at h
      obtain ⟨c, hc⟩ := Expr.exists_of_payloads_eq_nil (β := β) h.1
      obtain ⟨body, hbody⟩ := exists_map_eq_map fun s hs => ih s hs (h.2 s hs)
      exact ⟨.guard c body, by simp [hc, hbody]⟩
  | branch condition thenBody elseBody ht he =>
      simp only [payloads_branch, List.append_eq_nil_iff, List.flatMap_eq_nil_iff] at h
      obtain ⟨c, hc⟩ := Expr.exists_of_payloads_eq_nil (β := β) h.1
      obtain ⟨body, hbody⟩ := exists_map_eq_map fun s hs => ht s hs (h.2.1 s hs)
      cases elseBody with
      | none => exact ⟨.branch c body none, by simp [hc, hbody]⟩
      | some elseBody =>
          obtain ⟨other, hother⟩ := exists_map_eq_map fun s hs => he elseBody rfl s hs (h.2.2 s hs)
          exact ⟨.branch c body (some other), by simp [hc, hbody, hother]⟩
  | returns value =>
      obtain ⟨v, hv⟩ := Expr.exists_option_of_payloads_eq_nil (β := β) (by simpa using h)
      exact ⟨.returns v, by rw [shape_returns, hv, shape_returns]⟩
  | throws error =>
      obtain ⟨e, he⟩ := Expr.exists_of_payloads_eq_nil (β := β) (e := error) (by simpa using h)
      exact ⟨.throws e, by simp [he]⟩
  | defer body ih =>
      simp only [payloads_defer, List.flatMap_eq_nil_iff] at h
      obtain ⟨body', hbody⟩ := exists_map_eq_map fun s hs => ih s hs (h s hs)
      exact ⟨.defer body', by simp [hbody]⟩
  | expression value =>
      obtain ⟨v, hv⟩ := Expr.exists_of_payloads_eq_nil (β := β) (e := value) (by simpa using h)
      exact ⟨.expression v, by simp [hv]⟩

theorem exists_list_of_payloads_eq_nil {body : List (Stmt α)} (h : body.flatMap payloads = []) :
    ∃ body' : List (Stmt β), body'.map shape = body.map shape :=
  exists_map_eq_map fun s hs => exists_of_payloads_eq_nil (List.flatMap_eq_nil_iff.mp h s hs)

end Stmt

theorem Decl.exists_of_payloads_eq_nil {d : Decl α} (h : d.payloads = []) :
    ∃ d' : Decl β, d'.shape = d.shape := by
  induction d using Decl.induction with
  | function d =>
      obtain ⟨body, hbody⟩ := Stmt.exists_list_of_payloads_eq_nil (β := β) (by simpa using h)
      exact ⟨.function ⟨d.access, d.name, d.parameters, d.isAsync, d.canThrow, d.returnType, body⟩,
        by simp [hbody]⟩
  | property d =>
      obtain ⟨i, hi⟩ := Expr.exists_option_of_payloads_eq_nil (β := β) (by simpa using h)
      exact ⟨.property ⟨d.access, d.name, d.type, d.isStatic, d.binding, i⟩,
        by rw [shape_property, hi, shape_property]⟩
  | computed d =>
      obtain ⟨name, type, isStatic, getter, setter⟩ := d
      rw [payloads_computed, List.append_eq_nil_iff] at h
      obtain ⟨body, hbody⟩ := Stmt.exists_list_of_payloads_eq_nil (β := β) h.1
      cases setter with
      | none => exact ⟨.computed ⟨name, type, isStatic, body, none⟩, by simp [hbody]⟩
      | some setter =>
          obtain ⟨other, hother⟩ := Stmt.exists_list_of_payloads_eq_nil (β := β) h.2
          exact ⟨.computed ⟨name, type, isStatic, body, some ⟨setter.parameter, other⟩⟩,
            by simpa [hbody, Setter.shape, ComputedDecl.setterBody] using hother⟩
  | extension d ih =>
      simp only [payloads_extension, List.flatMap_eq_nil_iff] at h
      obtain ⟨members, hmembers⟩ := exists_map_eq_map fun m hm => ih m hm (h m hm)
      exact ⟨.extension ⟨d.type, d.conformances, members⟩, by simp [hmembers]⟩
  | struct d ih =>
      simp only [payloads_struct, List.flatMap_eq_nil_iff] at h
      obtain ⟨members, hmembers⟩ := exists_map_eq_map fun m hm => ih m hm (h m hm)
      exact ⟨.struct ⟨d.access, d.name, d.conformances, members⟩, by simp [hmembers]⟩
  | initializer d =>
      obtain ⟨body, hbody⟩ := Stmt.exists_list_of_payloads_eq_nil (β := β) (by simpa using h)
      exact ⟨.initializer ⟨d.access, d.parameters, d.canThrow, body⟩, by simp [hbody]⟩

namespace Fragment

theorem exists_of_payloads_eq_nil {t : Fragment α} (h : t.payloads = []) :
    ∃ u : Fragment β, u.shape = t.shape := by
  cases t with
  | expr e =>
      obtain ⟨e', he'⟩ := Expr.exists_of_payloads_eq_nil (β := β) h
      exact ⟨.expr e', by rw [shape_expr, he', shape_expr]⟩
  | stmt stmt =>
      obtain ⟨stmt', hstmt'⟩ := Stmt.exists_of_payloads_eq_nil (β := β) h
      exact ⟨.stmt stmt', by rw [shape_stmt, hstmt', shape_stmt]⟩
  | decl d =>
      obtain ⟨d', hd'⟩ := Decl.exists_of_payloads_eq_nil (β := β) h
      exact ⟨.decl d', by rw [shape_decl, hd', shape_decl]⟩

-- What has the shape of a tree has as many payloads.
theorem length_payloads_of_shape {t : Fragment α} {u : Fragment β} (h : u.shape = t.shape) :
    u.payloads.length = t.payloads.length := by
  have ht := t.length_payloads_mapAccum (fun _ _ => ((), ())) ()
  have hu := u.length_payloads_mapAccum (fun _ _ => ((), ())) ()
  calc u.payloads.length = u.shape.payloads.length := hu.symm
    _ = t.shape.payloads.length := by rw [h]
    _ = t.payloads.length := ht

theorem mapAccum_handsOut {f : List β → α → β × List β} (hf : HandsOut f) {t : Fragment α}
    {u : Fragment β} (h : u.shape = t.shape) : t.mapAccum f u.payloads = (u, []) :=
  mapAccum_eq_iff.mpr ⟨h, hf.accumulate (length_payloads_of_shape h)⟩

theorem exists_filled {t : Fragment α} {values : List β}
    (h : values.length = t.payloads.length) :
    ∃ u : Fragment β, u.shape = t.shape ∧ u.payloads = values := by
  cases values with
  | nil =>
      obtain ⟨u, hu⟩ := exists_of_payloads_eq_nil (β := β) (List.length_eq_zero_iff.mp h.symm)
      have hlength := length_payloads_of_shape hu
      rw [← h] at hlength
      exact ⟨u, hu, List.length_eq_zero_iff.mp hlength⟩
  | cons value rest =>
      obtain ⟨f, hf⟩ := exists_handsOut (α := α) value
      have hpayloads := t.accumulate_payloads f (value :: rest)
      rw [hf.accumulate h] at hpayloads
      exact ⟨_, t.shape_mapAccum f _, (Prod.mk.inj hpayloads).1.symm⟩

end Fragment

-- A tree is its shape together with its payloads: no two trees share both, and every list of the
-- right length fills the shape in one way, which is to hand out its values in order.
theorem tree_is_shape_with_payloads :
    (∀ t u : Fragment α, t.shape = u.shape → t.payloads = u.payloads → t = u) ∧
    (∀ (t : Fragment α) (values : List β), values.length = t.payloads.length →
      ∃ u : Fragment β, (u.shape = t.shape ∧ u.payloads = values) ∧
        (∀ u' : Fragment β, u'.shape = t.shape → u'.payloads = values → u' = u) ∧
        ∀ f : List β → α → β × List β, HandsOut f →
          t.mapAccum f values = (u, []) ∧ (t.traverse (stateful f)).run values = (u, [])) := by
  refine ⟨fun t u => Fragment.ext_of_shape, fun t values hlength => ?_⟩
  obtain ⟨u, hshape, rfl⟩ := Fragment.exists_filled hlength
  refine ⟨u, ⟨hshape, rfl⟩, fun u' hshape' hpayloads => ?_, fun f hf => ?_⟩
  · exact Fragment.ext_of_shape (hshape'.trans hshape.symm) hpayloads
  · rw [Fragment.run_traverse]
    exact ⟨Fragment.mapAccum_handsOut hf hshape, Fragment.mapAccum_handsOut hf hshape⟩

-- Payloads in a condition, under a label and behind an `else`.
def branching (condition argument result : α) : Fragment α :=
  .stmt (.branch (.variable "ready" condition)
    [.throws (.call "Failure" [⟨none, .literal .nil⟩, ⟨some "of", .variable "task" argument⟩])]
    (some [.returns (some (.property (.variable "task" result) "value"))]))

theorem tree_is_shape_with_payloads_branching :
    (branching 1 2 3).shape = ((branching 0 1 2).mapAccum (fun s a => (a + 1, s)) ()).1.shape ∧
    branching 1 2 3 = ((branching 0 1 2).mapAccum (fun s a => (a + 1, s)) ()).1 ∧
    ["a", "b", "c"].length = (branching 1 2 3).payloads.length ∧
    (branching 1 2 3).mapAccum (fun values _ => (values.headD "", values.tail)) ["a", "b", "c"] =
      (branching "a" "b" "c", []) := by
  obtain ⟨hext, hfill⟩ := tree_is_shape_with_payloads (α := Nat) (β := String)
  obtain ⟨u, -, hunique, hmap⟩ := hfill (branching 1 2 3) ["a", "b", "c"] rfl
  have hu : branching "a" "b" "c" = u := hunique _ rfl rfl
  refine ⟨rfl, hext _ _ rfl rfl, rfl, ?_⟩
  rw [hu]
  exact (hmap _ fun _ _ _ => rfl).1

end SwiftSource

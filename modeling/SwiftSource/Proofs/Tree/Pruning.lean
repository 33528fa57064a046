import Mathlib.Data.List.Lattice
import SwiftSource.Proofs.Tree.Position

namespace SwiftSource

variable {α β : Type}

-- Reads a listing from the left. Behind an entry at which `stop` holds, all that is deeper is
-- left out, as far as it goes without a gap.
def prune (stop : β → Bool) : List (Nat × β) → List (Nat × β)
  | [] => []
  | (depth, head) :: rest =>
    (depth, head) :: prune stop (if stop head then rest.dropWhile (depth < ·.1) else rest)
termination_by listing => listing.length
decreasing_by
  have hdrop := (List.dropWhile_sublist (fun v : Nat × β => depth < v.1) (l := rest)).length_le
  split <;> simp only [List.length_cons] <;> omega

@[simp]
theorem prune_nil (stop : β → Bool) : prune stop [] = [] := by
  rw [prune]

theorem prune_cons (stop : β → Bool) (depth : Nat) (head : β) (rest : List (Nat × β)) :
    prune stop ((depth, head) :: rest) =
      (depth, head) :: prune stop (if stop head then rest.dropWhile (depth < ·.1) else rest) := by
  rw [prune]

namespace Outline

-- Where a subtree ends: what follows is not below an entry at `depth`.
def Ends (depth : Nat) (rest : List (Nat × β)) : Prop :=
  ∀ v ∈ rest.head?, v.1 ≤ depth

theorem Ends.dropWhile {depth : Nat} {rest : List (Nat × β)} (h : Ends depth rest) :
    rest.dropWhile (depth < ·.1) = rest := by
  cases rest with
  | nil => rfl
  | cons v rest =>
      have hv : ¬ depth < v.1 := Nat.not_lt.mpr (h v rfl)
      simp [hv]

-- Every subtree is listed in one run, below its own heading.
theorem le_of_mem_visits {stop : β → Bool} {o : Outline β} {depth : Nat} {v : Nat × β}
    (h : v ∈ o.visits stop depth) : depth ≤ v.1 := by
  induction o using Outline.induction generalizing depth with
  | entry head parts ih =>
      rw [visits, visitsList_eq] at h
      rcases List.mem_cons.mp h with rfl | h
      · exact Nat.le_refl depth
      · split at h
        · cases h
        · obtain ⟨part, hpart, hv⟩ := List.mem_flatMap.mp h
          exact Nat.le_of_succ_le (ih part hpart hv)

theorem ends_visits (stop : β → Bool) (o : Outline β) (depth : Nat) (rest : List (Nat × β)) :
    Ends depth (o.visits stop depth ++ rest) := by
  obtain ⟨head, parts⟩ := o
  rw [visits]
  intro v hv
  obtain rfl : (depth, head) = v := by simpa using hv
  exact Nat.le_refl depth

theorem ends_flatMap_visits (stop : β → Bool) (parts : List (Outline β)) {depth : Nat}
    {rest : List (Nat × β)} (h : Ends depth rest) :
    Ends depth (parts.flatMap (visits stop depth) ++ rest) := by
  cases parts with
  | nil => exact h
  | cons part parts =>
      rw [List.flatMap_cons, List.append_assoc]
      exact ends_visits stop part depth _

theorem prune_flatMap_visits {p q : β → Bool} {parts : List (Outline β)} {depth : Nat}
    {rest : List (Nat × β)} (hrest : Ends depth rest)
    (h : ∀ part ∈ parts, ∀ rest, Ends depth rest → prune q (part.visits p depth ++ rest) =
      part.visits (fun b => p b || q b) depth ++ prune q rest) :
    prune q (parts.flatMap (visits p depth) ++ rest) =
      parts.flatMap (visits (fun b => p b || q b) depth) ++ prune q rest := by
  induction parts with
  | nil => rfl
  | cons part parts ih =>
      obtain ⟨hpart, hparts⟩ := List.forall_mem_cons.mp h
      rw [List.flatMap_cons, List.flatMap_cons, List.append_assoc, List.append_assoc,
        hpart _ (ends_flatMap_visits p parts hrest), ih hparts]

-- Pruning a listing is visiting with more stops.
theorem prune_visits (p q : β → Bool) (o : Outline β) {depth : Nat} {rest : List (Nat × β)}
    (hrest : Ends depth rest) :
    prune q (o.visits p depth ++ rest) =
      o.visits (fun b => p b || q b) depth ++ prune q rest := by
  induction o using Outline.induction generalizing depth rest with
  | entry head parts ih =>
      rw [visits, visits, visitsList_eq, visitsList_eq, List.cons_append, List.cons_append,
        prune_cons]
      congr 1
      by_cases hp : p head = true
      · -- the visit stopped here, and pruning finds nothing below
        simp [hp, hrest.dropWhile]
      · by_cases hq : q head = true
        · have hbelow : ∀ v ∈ parts.flatMap (visits p (depth + 1)),
              decide (depth < v.1) = true := by
            intro v hv
            obtain ⟨part, -, hv⟩ := List.mem_flatMap.mp hv
            exact decide_eq_true (le_of_mem_visits hv)
          simp [hp, hq, List.dropWhile_append_of_pos hbelow, hrest.dropWhile]
        · have hdeeper : Ends (depth + 1) rest := fun v hv => Nat.le_succ_of_le (hrest v hv)
          have hparts := prune_flatMap_visits hdeeper fun part hpart rest h => ih part hpart h
          simpa [hp, hq] using hparts

end Outline

-- What a listing says of a fragment.
def Fragment.entry (t : Fragment α) : String × String := (t.kind, t.label)

namespace Fragment

theorem listing_eq_visits (cut : List String) (t : Fragment α) :
    t.listing cut = (t.outline.map entry).visits (fun e => cut.contains e.1) 0 := by
  rw [Outline.visits_map]
  rfl

theorem prune_listing (cut cut' : List String) (t : Fragment α) :
    prune (fun e => cut'.contains e.1) (t.listing cut) = t.listing (cut ∪ cut') := by
  have hunion (kind : String) :
      (cut ∪ cut').contains kind = (cut.contains kind || cut'.contains kind) := by
    rw [Bool.eq_iff_iff]
    simp
  have hends : Outline.Ends 0 ([] : List (Nat × String × String)) := by simp [Outline.Ends]
  have h := Outline.prune_visits (fun e => cut.contains e.1) (fun e => cut'.contains e.1)
    (t.outline.map entry) hends
  rw [listing_eq_visits, listing_eq_visits]
  simpa [-List.contains_eq_mem, hunion] using h

theorem Enumerates.listing_eq {t : Fragment α} {nodes : List (List Place × Fragment α)}
    (h : t.Enumerates nodes) :
    t.listing [] = nodes.map fun node => (node.1.length, node.2.kind, node.2.label) := by
  have hnone : (fun u : Fragment α => ([] : List String).contains u.kind) = fun _ => false := by
    simp
  rw [listing, hnone, h.visits_eq, List.map_map]
  simp [Function.comp_def]

end Fragment

-- A pruned listing is the full one without all that is below a kind that was cut. The full one
-- holds every node of the tree once, at the depth of its path. Pruning what is pruned already
-- is pruning by both sets of kinds.
theorem pruning_cuts_subtrees (t : Fragment α) :
    (∀ cut, t.listing cut = prune (fun entry => cut.contains entry.1) (t.listing [])) ∧
    (∃ nodes : List (List Place × Fragment α), (nodes.map Prod.fst).Nodup ∧
      (∀ path u, (path, u) ∈ nodes ↔ t.node? path = some u) ∧
      t.listing [] = nodes.map fun node => (node.1.length, node.2.kind, node.2.label)) ∧
    ∀ cut cut', prune (fun entry => cut'.contains entry.1) (t.listing cut) =
      t.listing (cut ∪ cut') := by
  refine ⟨fun cut => ?_, ?_, fun cut cut' => t.prune_listing cut cut'⟩
  · rw [t.prune_listing, List.nil_union]
  · obtain ⟨nodes, hnodes⟩ := t.exists_enumerates
    exact ⟨nodes, hnodes.nodup, hnodes.mem_iff, hnodes.listing_eq⟩

end SwiftSource

import Mathlib.Data.List.Basic

namespace SwiftSource

variable {α β γ σ τ : Type}

-- Runs `f` over a list from left to right. The result is what it gave back and the last state.
def accumulate (f : σ → α → β × σ) (s : σ) : List α → List β × σ
  | [] => ([], s)
  | a :: rest =>
    let b := f s a
    let bs := accumulate f b.2 rest
    (b.1 :: bs.1, bs.2)

@[simp]
theorem accumulate_nil (f : σ → α → β × σ) (s : σ) : accumulate f s [] = ([], s) := rfl

@[simp]
theorem accumulate_cons (f : σ → α → β × σ) (s : σ) (a : α) (rest : List α) :
    accumulate f s (a :: rest) =
      ((f s a).1 :: (accumulate f (f s a).2 rest).1, (accumulate f (f s a).2 rest).2) := rfl

@[simp]
theorem accumulate_append (f : σ → α → β × σ) (s : σ) (as bs : List α) :
    accumulate f s (as ++ bs) =
      ((accumulate f s as).1 ++ (accumulate f (accumulate f s as).2 bs).1,
        (accumulate f (accumulate f s as).2 bs).2) := by
  induction as generalizing s with
  | nil => rfl
  | cons a rest ih => simp only [List.cons_append, accumulate_cons, ih]

@[simp]
theorem length_accumulate (f : σ → α → β × σ) (s : σ) (as : List α) :
    (accumulate f s as).1.length = as.length := by
  induction as generalizing s with
  | nil => rfl
  | cons a rest ih => simp only [accumulate_cons, List.length_cons, ih]

theorem accumulate_snd (f : σ → α → β × σ) (s : σ) (as : List α) :
    (accumulate f s as).2 = as.foldl (fun s a => (f s a).2) s := by
  induction as generalizing s with
  | nil => rfl
  | cons a rest ih => rw [accumulate_cons, List.foldl_cons, ih]

theorem accumulate_identity (s : σ) (as : List α) :
    accumulate (fun s a => (a, s)) s as = (as, s) := by
  induction as with
  | nil => rfl
  | cons a rest ih => rw [accumulate_cons, ih]

-- Without a state there is only a map.
theorem accumulate_unit (f : Unit → α → β × Unit) (as : List α) :
    (accumulate f () as).1 = as.map fun a => (f () a).1 := by
  induction as with
  | nil => rfl
  | cons a rest ih => rw [accumulate_cons, List.map_cons, ih]

-- First `f` and then `g` at each element, each with a state of its own.
def andThen (f : σ → α → β × σ) (g : τ → β → γ × τ) (s : σ × τ) (a : α) : γ × σ × τ :=
  let b := f s.1 a
  let c := g s.2 b.1
  (c.1, b.2, c.2)

-- One pass over a list does the work of two, although the steps of `f` and `g` alternate.
theorem accumulate_andThen (f : σ → α → β × σ) (g : τ → β → γ × τ) (s : σ) (t : τ)
    (as : List α) :
    accumulate (andThen f g) (s, t) as =
      ((accumulate g t (accumulate f s as).1).1, (accumulate f s as).2,
        (accumulate g t (accumulate f s as).1).2) := by
  induction as generalizing s t with
  | nil => rfl
  | cons a rest ih => simp only [accumulate_cons, andThen, ih]

-- The same function with a record of its calls: what it was handed, and what it gave back.
def recording (f : σ → α → β × σ) (s : σ × List (α × β)) (a : α) : β × σ × List (α × β) :=
  let b := f s.1 a
  (b.1, b.2, s.2 ++ [(a, b.1)])

theorem accumulate_recording (f : σ → α → β × σ) (s : σ) (calls : List (α × β))
    (as : List α) :
    accumulate (recording f) (s, calls) as =
      ((accumulate f s as).1, (accumulate f s as).2,
        calls ++ as.zip (accumulate f s as).1) := by
  induction as generalizing s calls with
  | nil => simp
  | cons a rest ih =>
    simp only [accumulate_cons, recording, ih, List.zip_cons_cons, List.append_assoc,
      List.singleton_append]

section Parts

-- A list of things that are each run through as a whole, by `run`.
variable {ρ ρ' : Type} {run : σ → ρ → ρ' × σ}

-- What holds of each result holds of the list of results.
theorem map_accumulate {p : ρ' → γ} {q : ρ → γ} {xs : List ρ}
    (h : ∀ x ∈ xs, ∀ s, p (run s x).1 = q x) (s : σ) :
    (accumulate run s xs).1.map p = xs.map q := by
  induction xs generalizing s with
  | nil => rfl
  | cons x rest ih =>
    obtain ⟨hx, hrest⟩ := List.forall_mem_cons.mp h
    rw [accumulate_cons, List.map_cons, List.map_cons, hx, ih hrest]

-- If `run` takes `f` through the elements of each thing, it takes `f` through all of them.
theorem accumulate_flatMap {f : σ → α → β × σ} {p : ρ → List α} {p' : ρ' → List β} {xs : List ρ}
    (h : ∀ x ∈ xs, ∀ s, accumulate f s (p x) = (p' (run s x).1, (run s x).2)) (s : σ) :
    accumulate f s (xs.flatMap p) =
      ((accumulate run s xs).1.flatMap p', (accumulate run s xs).2) := by
  induction xs generalizing s with
  | nil => rfl
  | cons x rest ih =>
    obtain ⟨hx, hrest⟩ := List.forall_mem_cons.mp h
    simp only [List.flatMap_cons, accumulate_append, accumulate_cons, hx, ih hrest]

end Parts

end SwiftSource

import Mathlib.Data.List.TakeDrop

namespace SwiftSource.Parse

-- Whether a text goes on with a character of the given class.
def starts (p : Char → Bool) : List Char → Bool
  | [] => false
  | c :: _ => p c

@[simp]
theorem starts_cons (p : Char → Bool) (c : Char) (rest : List Char) :
    starts p (c :: rest) = p c := rfl

theorem starts_append {p : Char → Bool} {xs : List Char} (rest : List Char)
    (hne : xs ≠ []) : starts p (xs ++ rest) = starts p xs := by
  cases xs with
  | nil => exact absurd rfl hne
  | cons c xs => rfl

theorem starts_of_forall {p : Char → Bool} {xs : List Char} (hne : xs ≠ [])
    (hxs : ∀ c ∈ xs, p c = true) (rest : List Char) : starts p (xs ++ rest) = true := by
  cases xs with
  | nil => exact absurd rfl hne
  | cons c xs => exact hxs c (by simp)

-- A run of characters of one class is cut off where the class ends.
theorem span_append {p : Char → Bool} {xs rest : List Char} (hxs : ∀ c ∈ xs, p c = true)
    (hrest : starts p rest = false) : (xs ++ rest).span p = (xs, rest) := by
  have hstop : rest.takeWhile p = [] ∧ rest.dropWhile p = rest := by
    cases rest with
    | nil => exact ⟨rfl, rfl⟩
    | cons c rest =>
        have hc : p c = false := hrest
        simp [hc]
  rw [List.span_eq_takeWhile_dropWhile, List.takeWhile_append_of_pos hxs,
    List.dropWhile_append_of_pos hxs, hstop.1, hstop.2, List.append_nil]

-- Takes the given text off the front.
def expect : List Char → List Char → Option (List Char)
  | [], cs => some cs
  | t :: text, c :: cs => if t = c then expect text cs else none
  | _ :: _, [] => none

@[simp]
theorem expect_append (text rest : List Char) : expect text (text ++ rest) = some rest := by
  induction text with
  | nil => rfl
  | cons t text ih => simp [expect, ih]

@[simp]
theorem expect_singleton (c : Char) (rest : List Char) : expect [c] (c :: rest) = some rest :=
  expect_append [c] rest

-- Parsers end because what they leave is shorter than what they were given. Where both are
-- spelled out, this is found from their form.
class Shorter (rest cs : List Char) : Prop where
  length_lt : rest.length < cs.length

instance Shorter.cons_self (c : Char) (rest : List Char) : Shorter rest (c :: rest) :=
  ⟨Nat.lt_succ_self rest.length⟩

instance Shorter.cons_append_self (c : Char) (xs rest : List Char) :
    Shorter rest (c :: (xs ++ rest)) where
  length_lt := by
    rw [List.length_cons, List.length_append]
    omega

instance Shorter.cons (c : Char) (rest cs : List Char) [h : Shorter rest cs] :
    Shorter rest (c :: cs) :=
  ⟨Nat.lt_succ_of_lt h.length_lt⟩

instance Shorter.append (xs rest cs : List Char) [h : Shorter rest cs] :
    Shorter rest (xs ++ cs) where
  length_lt := by
    have hlt := h.length_lt
    rw [List.length_append]
    omega

theorem shorter_append_self {xs : List Char} (hne : xs ≠ []) (rest : List Char) :
    Shorter rest (xs ++ rest) where
  length_lt := by
    have hpos : 0 < xs.length := List.length_pos_iff.mpr hne
    rw [List.length_append]
    omega

-- Goes on with the rest of a text from which something was taken.
def after {β : Type} (cs rest : List Char) (next : rest.length < cs.length → Option β) :
    Option β :=
  if h : rest.length < cs.length then next h else none

@[simp]
theorem after_of_shorter {β : Type} (cs rest : List Char) [h : Shorter rest cs]
    (next : rest.length < cs.length → Option β) : after cs rest next = next h.length_lt :=
  dif_pos h.length_lt

end SwiftSource.Parse

import SwiftSource.Proofs.Parse.Scan
import SwiftSource.Proofs.Part.Separated

namespace SwiftSource.Parse

variable {γ : Type}

-- One round of reading a list with commas, up to the character that closes it.
def separatedStep (p : List Char → Option (γ × List Char))
    (others : List Char → Option (List (Separated γ) × List Char)) (close : Char)
    (cs : List Char) : Option (List (Separated γ) × List Char) :=
  if starts (· == close) cs then return ([], cs.tail)
  else do
    let (first, rest) ← p cs
    match expect [',', ' '] rest with
    | none => do
      let rest ← expect [close] rest
      return ([⟨first, false⟩], rest)
    | some rest => after cs rest fun _ => do
      let (entries, rest) ← others rest
      return (⟨first, true⟩ :: entries, rest)

def separated (p : List Char → Option (γ × List Char)) (close : Char) (cs : List Char) :
    Option (List (Separated γ) × List Char) :=
  if starts (· == close) cs then return ([], cs.tail)
  else do
    let (first, rest) ← p cs
    match expect [',', ' '] rest with
    | none => do
      let rest ← expect [close] rest
      return ([⟨first, false⟩], rest)
    | some rest => after cs rest fun _ => do
      let (entries, rest) ← separated p close rest
      return (⟨first, true⟩ :: entries, rest)
termination_by cs.length

theorem separated_eq_step (p : List Char → Option (γ × List Char)) (close : Char)
    (cs : List Char) : separated p close cs = separatedStep p (separated p close) close cs := by
  rw [separated]
  rfl

-- The text of a list with the commas it holds.
def separatedChars (text : γ → List Char) (entries : List (Separated γ)) : List Char :=
  entries.flatMap fun entry => text entry.element ++ if entry.comma then [',', ' '] else []

-- Whatever reads a list round by round finds the list again, if it finds each element and no
-- element begins with what closes the list.
theorem separated_reads {p : List Char → Option (γ × List Char)}
    {list : List Char → Option (List (Separated γ) × List Char)} {close : Char}
    (hstep : ∀ cs, list cs = separatedStep p list close cs) (hcomma : close ≠ ',')
    (hclose : ∀ cs, p (close :: cs) = none) {text : γ → List Char} {entries : List γ}
    (hp : ∀ x ∈ entries, ∀ c rest, c = ',' ∨ c = close →
      p (text x ++ c :: rest) = some (x, c :: rest)) (rest : List Char) :
    list (separatedChars text (separate entries) ++ close :: rest) =
      some (separate entries, rest) := by
  have hstart {cs : List Char} {x : γ} {rest : List Char} (h : p cs = some (x, rest)) :
      starts (· == close) cs = false := by
    cases cs with
    | nil => rfl
    | cons c cs =>
        rw [starts_cons]
        by_contra hc
        have hc : c = close := by simpa using hc
        rw [hc, hclose] at h
        cases h
  induction entries with
  | nil =>
      rw [hstep]
      simp [separatedStep, separate, separatedChars]
  | cons x entries ih =>
      cases entries with
      | nil =>
          have hx := hp x (by simp) close rest (Or.inr rfl)
          have hclosed : expect [close] (close :: rest) = some rest := expect_append [close] rest
          have hno : expect [',', ' '] (close :: rest) = none := by
            simp [expect, Ne.symm hcomma]
          have htext : separatedChars text (separate [x]) ++ close :: rest =
              text x ++ close :: rest := by
            simp [separatedChars, separate]
          rw [htext, hstep, separatedStep, hstart hx, hx]
          simp [hno, hclosed, separate]
      | cons y entries =>
          have hrest := ih fun z hz => hp z (by simp [hz])
          have htext : separatedChars text (separate (x :: y :: entries)) ++ close :: rest =
              text x ++ ',' :: ' ' ::
                (separatedChars text (separate (y :: entries)) ++ close :: rest) := by
            simp [separatedChars, separate]
          have hx := hp x (by simp) ','
            (' ' :: (separatedChars text (separate (y :: entries)) ++ close :: rest)) (Or.inl rfl)
          rw [htext, hstep, separatedStep, hstart hx, hx]
          simp [expect, hrest, separate]

end SwiftSource.Parse

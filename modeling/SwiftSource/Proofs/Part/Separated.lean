import SwiftSource.Part

namespace SwiftSource

variable {β γ : Type}

-- A comma follows every element but the last.
def CommasBetween (entries : List (Separated β)) : Prop :=
  ∀ i (hi : i < entries.length), entries[i].comma = true ↔ i + 1 < entries.length

theorem commasBetween_separate (elements : List β) : CommasBetween (separate elements) := by
  induction elements with
  | nil =>
      intro i hi
      simp [separate] at hi
  | cons x rest ih =>
      cases rest with
      | nil =>
          intro i hi
          have hzero : i = 0 := by simpa [separate] using hi
          subst hzero
          simp [separate]
      | cons y rest =>
          have hne : separate (y :: rest) ≠ [] := by
            intro h
            have hmap := congrArg (List.map Separated.element) h
            simp at hmap
          have hpos := List.length_pos_iff.mpr hne
          intro i hi
          cases i with
          | zero => simpa [separate] using hpos
          | succ i =>
              have hi' : i < (separate (y :: rest)).length := by simpa [separate] using hi
              simpa [separate] using ih i hi'

theorem CommasBetween.eq_separate {entries : List (Separated β)} (h : CommasBetween entries) :
    separate (entries.map Separated.element) = entries := by
  induction entries with
  | nil => rfl
  | cons entry rest ih =>
      have hfirst := h 0 (by simp)
      cases rest with
      | nil =>
          obtain ⟨element, comma⟩ := entry
          have hcomma : comma = false := by simpa using hfirst
          simp [separate, hcomma]
      | cons next rest =>
          obtain ⟨element, comma⟩ := entry
          have hcomma : comma = true := by simpa using hfirst
          have hrest : CommasBetween (next :: rest) := by
            intro i hi
            have hstep := h (i + 1) (by simpa using hi)
            simpa using hstep
          have hseparate := ih hrest
          simp only [List.map_cons] at hseparate ⊢
          rw [separate, hseparate, hcomma]

theorem CommasBetween.exists_separate {entries : List (Separated β)} (h : CommasBetween entries) :
    ∃ elements, separate elements = entries :=
  ⟨_, h.eq_separate⟩

-- What holds of the elements holds of the entries of the list with commas.
theorem forall_mem_separate {elements : List β} {p : β → Prop}
    (h : ∀ x ∈ elements, p x) : ∀ entry ∈ separate elements, p entry.element := by
  intro entry hentry
  apply h
  have hmem := List.mem_map_of_mem hentry (f := Separated.element)
  rwa [map_element_separate] at hmem

-- Commas do not depend on what the elements are.
theorem separate_map (f : β → γ) (xs : List β) :
    separate (xs.map f) = (separate xs).map fun entry => ⟨f entry.element, entry.comma⟩ := by
  induction xs with
  | nil => rfl
  | cons x rest ih =>
      cases rest with
      | nil => rfl
      | cons y rest => simpa [separate] using ih

end SwiftSource

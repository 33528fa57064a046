import SwiftSource.Keyword
import SwiftSource.Node.Print
import SwiftSource.Proofs.Layout.Flat

namespace SwiftSource

namespace Parse

-- Whether two texts differ before either of them ends.
def clashes : List Char → List Char → Bool
  | x :: xs, y :: ys => x != y || clashes xs ys
  | _, _ => false

theorem expect_of_clashes {xs ys : List Char} (h : clashes xs ys = true) (rest : List Char) :
    expect xs (ys ++ rest) = none := by
  induction xs generalizing ys with
  | nil => cases ys <;> cases h
  | cons x xs ih =>
      cases ys with
      | nil => cases h
      | cons y ys =>
          rw [List.cons_append, expect]
          split
          · rename_i hxy
            have hrest : clashes xs ys = true := by simpa [clashes, hxy] using h
            exact ih hrest
          · rfl

-- Takes those of the given words that are there, in their order.
def choose (spell : String → List Char) : List String → List Char → List String × List Char
  | [], cs => ([], cs)
  | w :: ws, cs =>
    match expect (spell w) cs with
    | none => choose spell ws cs
    | some rest => (w :: (choose spell ws rest).1, (choose spell ws rest).2)

theorem choose_append {spell : String → List Char} {words chosen : List String}
    (hsub : chosen.Sublist words)
    (hclash : words.Pairwise fun w w' => clashes (spell w) (spell w') = true)
    {rest : List Char} (hrest : ∀ w ∈ words, expect (spell w) rest = none) :
    choose spell words (chosen.flatMap spell ++ rest) = (chosen, rest) := by
  induction hsub with
  | slnil => rfl
  | @cons chosen words w hsub ih =>
      obtain ⟨hw, hwords⟩ := List.pairwise_cons.mp hclash
      have hnone : expect (spell w) (chosen.flatMap spell ++ rest) = none := by
        cases chosen with
        | nil => exact hrest w (by simp)
        | cons w' chosen =>
            have hmem : w' ∈ words := hsub.subset (by simp)
            rw [List.flatMap_cons, List.append_assoc]
            exact expect_of_clashes (hw w' hmem) _
      rw [choose, hnone]
      exact ih hwords fun w' hw' => hrest w' (by simp [hw'])
  | @cons_cons chosen words w hsub ih =>
      obtain ⟨-, hwords⟩ := List.pairwise_cons.mp hclash
      have htail := ih hwords fun w' hw' => hrest w' (by simp [hw'])
      rw [List.flatMap_cons, List.append_assoc, choose, expect_append]
      simp only [htail]

end Parse

namespace KeywordSet

variable {vocabulary : List String}

def ofKeywords (keywords : List String) : KeywordSet vocabulary :=
  keywords.foldl (fun set keyword => set.union (.single keyword)) .empty

theorem keywords_sublist (set : KeywordSet vocabulary) : set.keywords.Sublist vocabulary := by
  have hsub := (List.filter_sublist (l := vocabulary.zipIdx)
    (p := fun entry => set.bits.getLsbD entry.2)).map Prod.fst
  rwa [List.zipIdx_map_fst] at hsub

theorem ofKeywords_modifiers (set : Modifiers) : ofKeywords set.keywords = set := by
  obtain ⟨bits⟩ := set
  revert bits
  decide

theorem ofKeywords_effects (set : Effects) : ofKeywords set.keywords = set := by
  obtain ⟨bits⟩ := set
  revert bits
  decide

end KeywordSet

namespace Parse

def spellModifier (keyword : String) : List Char := keyword.toList ++ [' ']

def spellEffect (keyword : String) : List Char := ' ' :: keyword.toList

def modifiers (cs : List Char) : Modifiers × List Char :=
  let chosen := choose spellModifier ["public", "fileprivate", "private", "static"] cs
  (.ofKeywords chosen.1, chosen.2)

def effects (cs : List Char) : Effects × List Char :=
  let chosen := choose spellEffect ["async", "throws"] cs
  (.ofKeywords chosen.1, chosen.2)

theorem flatList_modifiers (set : Modifiers) :
    Command.flatList (Print.modifiers set) = set.keywords.flatMap spellModifier := by
  unfold Print.modifiers
  induction set.keywords with
  | nil => rfl
  | cons keyword keywords ih =>
      simp [spellModifier, Command.flatList, Command.flat, ih]

theorem flatList_effects (set : Effects) :
    Command.flatList (Print.effects set) = set.keywords.flatMap spellEffect := by
  unfold Print.effects
  induction set.keywords with
  | nil => rfl
  | cons keyword keywords ih =>
      simp [spellEffect, Command.flatList, Command.flat, ih]

theorem modifiers_append (set : Modifiers) {rest : List Char}
    (hrest : ∀ w ∈ ["public", "fileprivate", "private", "static"],
      expect (spellModifier w) rest = none) :
    modifiers (Command.flatList (Print.modifiers set) ++ rest) = (set, rest) := by
  have hchoose := choose_append set.keywords_sublist (by decide) hrest
  rw [flatList_modifiers, modifiers, hchoose, KeywordSet.ofKeywords_modifiers]

theorem effects_append (set : Effects) {rest : List Char}
    (hrest : ∀ w ∈ ["async", "throws"], expect (spellEffect w) rest = none) :
    effects (Command.flatList (Print.effects set) ++ rest) = (set, rest) := by
  have hchoose := choose_append set.keywords_sublist (by decide) hrest
  rw [flatList_effects, effects, hchoose, KeywordSet.ofKeywords_effects]

end Parse

end SwiftSource

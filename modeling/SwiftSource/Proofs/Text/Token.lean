import SwiftSource.Node.Print
import SwiftSource.Proofs.Layout.Flat
import SwiftSource.Proofs.Part.Separated

namespace SwiftSource

-- A piece of source text. What a string literal says is kept apart from how it is written.
inductive Token where
  | word (text : String)
  | string (content : String)
deriving DecidableEq

namespace Token

def text : Token → String
  | .word text => text
  | .string content => Text.stringLiteral content

-- The text of tokens that follow one another.
def join (tokens : List Token) : String :=
  String.join (tokens.map text)

@[simp]
theorem join_nil : join [] = "" := rfl

@[simp]
theorem join_cons (token : Token) (tokens : List Token) :
    join (token :: tokens) = token.text ++ join tokens := by
  rw [join, List.map_cons, String.join_cons]
  rfl

@[simp]
theorem join_append (xs ys : List Token) : join (xs ++ ys) = join xs ++ join ys := by
  rw [join, List.map_append, String.join_append]
  rfl

@[simp]
theorem text_word (text : String) : (word text).text = text := rfl

def groupIf (needed : Bool) (tokens : List Token) : List Token :=
  if needed then [.word "("] ++ tokens ++ [.word ")"] else tokens

def commaSeparated (parts : List (List Token)) : List Token :=
  List.intercalate [.word ", "] parts

end Token

namespace Printer

-- Texts written one after the other are one text, wherever the line begins.
theorem write_write (indentation : Indentation) (p : Printer) (a b : String) :
    (p.write indentation a).write indentation b = p.write indentation (a ++ b) := by
  by_cases ha : a = ""
  · simp [write, ha]
  · by_cases hb : b = ""
    · simp [write, ha, hb]
    · have hab : a ++ b ≠ "" := by simp [ha]
      cases hstart : p.atLineStart with
      | true => simp [write, ha, hb, hab, hstart, String.append_assoc]
      | false => simp [write, ha, hb, hab, hstart, String.append_assoc]

theorem margin_zero (indentation : Indentation) : indentation.margin 0 = "" := by
  cases indentation with
  | spaces width => simp [Indentation.margin]
  | tabs => simp [Indentation.margin]

-- Outside of all blocks a line has no margin.
theorem output_write_of_depth_zero (indentation : Indentation) {p : Printer} (h : p.depth = 0)
    (text : String) : (p.write indentation text).output = p.output ++ text := by
  unfold write
  split_ifs with hempty hstart
  · simp [hempty]
  · simp [h, margin_zero]
  · rfl

end Printer

namespace Command

variable {xs ys : List Command} {s t : List Token}

-- A program that writes the tokens on the current line, and does nothing else.
def Spells (program : List Command) (tokens : List Token) : Prop :=
  ∀ (indentation : Indentation) (p : Printer),
    p.run indentation program = p.write indentation (Token.join tokens)

theorem spells_nil : Spells [] [] := by
  intro indentation p
  simp [Printer.run, Printer.write]

theorem spells_write (text : String) : Spells [.write text] [.word text] := by
  intro indentation p
  simp [Printer.run, Printer.exec]

theorem Spells.append (hx : Spells xs s) (hy : Spells ys t) : Spells (xs ++ ys) (s ++ t) := by
  intro indentation p
  rw [Printer.run_append, hx, hy, Printer.write_write, Token.join_append]

theorem Spells.cons (text : String) (hx : Spells xs s) :
    Spells (.write text :: xs) (.word text :: s) :=
  (spells_write text).append hx

-- How the text is cut into tokens makes no difference.
theorem Spells.of_join (hx : Spells xs s) (h : Token.join s = Token.join t) : Spells xs t := by
  intro indentation p
  rw [hx, h]

theorem Spells.flatMap {β : Type} {program : β → List Command} {tokens : β → List Token}
    {items : List β} (h : ∀ x ∈ items, Spells (program x) (tokens x)) :
    Spells (items.flatMap program) (items.flatMap tokens) := by
  induction items with
  | nil => exact spells_nil
  | cons x rest ih =>
      obtain ⟨hx, hrest⟩ := List.forall_mem_cons.mp h
      exact hx.append (ih hrest)

-- Commas behind all elements but the last stand between the elements.
theorem Spells.separate {β : Type} {program : β → List Command} {tokens : β → List Token}
    {items : List β} (h : ∀ x ∈ items, Spells (program x) (tokens x)) :
    Spells ((SwiftSource.separate items).flatMap fun entry =>
        program entry.element ++ Print.comma entry.comma)
      (Token.commaSeparated (items.map tokens)) := by
  induction items with
  | nil => exact spells_nil
  | cons x rest ih =>
      obtain ⟨hx, hrest⟩ := List.forall_mem_cons.mp h
      cases rest with
      | nil => simpa [SwiftSource.separate, Token.commaSeparated, Print.comma] using hx
      | cons y rest =>
          have htail := ih hrest
          have hall := (hx.append (spells_write ", ")).append htail
          simpa [SwiftSource.separate, Token.commaSeparated, Print.comma,
            List.intercalate_cons_cons] using hall

end Command

end SwiftSource

import SwiftSource.Proofs.Layout.Flat
import SwiftSource.Proofs.Nesting.Scan

namespace SwiftSource

namespace Printer

variable {indentation : Indentation} {p q r : Printer} {a b shows : Bool}

-- Between two states of the printer a text was added that is nested in itself.
def Adds (p q : Printer) (shows : Bool) : Prop :=
  ∃ added, q.output.toList = p.output.toList ++ added ∧ Nested shows added

theorem Adds.trans (h : p.Adds q a) (h' : q.Adds r b) : p.Adds r (a || b) := by
  obtain ⟨added, hout, hnested⟩ := h
  obtain ⟨added', hout', hnested'⟩ := h'
  exact ⟨added ++ added', by rw [hout', hout, List.append_assoc], hnested.append hnested'⟩

theorem adds_false (h : q.output = p.output) : p.Adds q false :=
  ⟨[], by simp [h], nested_nil⟩

theorem nested_margin (indentation : Indentation) (depth : Nat) :
    Nested false (indentation.margin depth).toList := by
  refine nested_of_not_delimiter fun c hc => ?_
  have hblank := Indentation.isBlank_of_mem_margin c hc
  simp only [isBlank, Bool.or_eq_true, beq_iff_eq] at hblank
  rcases hblank with rfl | rfl <;> rfl

-- Only blanks get between what is there and what is written.
theorem exists_blanks_write (indentation : Indentation) (p : Printer) (text : String) :
    ∃ blanks, (p.write indentation text).output.toList =
      p.output.toList ++ (blanks ++ text.toList) ∧ Nested false blanks := by
  unfold write
  split_ifs with hempty hstart
  · exact ⟨[], by simp [hempty], nested_nil⟩
  · exact ⟨(indentation.margin p.depth).toList, by simp, nested_margin indentation p.depth⟩
  · exact ⟨[], by simp, nested_nil⟩

theorem adds_write {text : String} (h : Nested shows text.toList) :
    p.Adds (p.write indentation text) shows := by
  obtain ⟨blanks, hout, hblanks⟩ := exists_blanks_write indentation p text
  exact ⟨_, hout, hblanks.false_append h⟩

theorem adds_newline (p : Printer) : p.Adds p.newline false :=
  ⟨['\n'], by simp [newline], nested_of_not_delimiter (by simp; rfl)⟩

-- What is added between two brackets is nested with them.
theorem Adds.enclosed {opening closing : String} {rest : List Char}
    (h : (p.write indentation opening).Adds q shows) (first last : Char)
    (hopening : opening.toList = first :: rest) (hfirst : isOpening first = true)
    (hrest : Nested false rest) (hclosing : closing.toList = [last])
    (hlast : isClosing last = true) :
    p.Adds (q.write indentation closing) (first == '{') := by
  obtain ⟨blanks, hout, hblanks⟩ := exists_blanks_write indentation p opening
  obtain ⟨added, hout', hadded⟩ := h
  obtain ⟨blanks', hout'', hblanks'⟩ := exists_blanks_write indentation q closing
  have hinside : Nested shows (rest ++ (added ++ blanks')) :=
    hrest.false_append (hadded.append_false hblanks')
  refine ⟨blanks ++ (first :: ((rest ++ (added ++ blanks')) ++ [last])), ?_,
    hblanks.false_append (hinside.enclosed first last hfirst hlast)⟩
  rw [hout'', hout', hout, hopening, hclosing]
  simp

end Printer

namespace Command

open Printer (Adds)

variable {xs ys program : List Command} {a b shows : Bool}

-- A program that prints text nested in itself, wherever it is run.
def Nests (shows : Bool) (program : List Command) : Prop :=
  ∀ (indentation : Indentation) (p : Printer), p.Adds (p.run indentation program) shows

def IsNested (program : List Command) : Prop :=
  ∃ shows, Nests shows program

theorem Nests.isNested (h : Nests shows program) : IsNested program :=
  ⟨shows, h⟩

theorem nests_nil : Nests false [] :=
  fun _ _ => Printer.adds_false rfl

theorem nests_text {text : String} (h : Nested shows text.toList) : Nests shows [.write text] := by
  intro indentation p
  exact Printer.adds_write h

theorem nests_write {text : String} (h : isBare text = true) : Nests false [.write text] :=
  nests_text (nested_of_isBare h)

theorem Nests.append (hx : Nests a xs) (hy : Nests b ys) : Nests (a || b) (xs ++ ys) := by
  intro indentation p
  rw [Printer.run_append]
  exact (hx indentation p).trans (hy indentation _)

theorem Nests.append_false (hx : Nests shows xs) (hy : Nests false ys) :
    Nests shows (xs ++ ys) := by
  simpa using hx.append hy

theorem Nests.cons {text : String} (h : isBare text = true) (hx : Nests shows xs) :
    Nests shows (.write text :: xs) :=
  (nests_write h).append hx

theorem Nests.flatMap {β : Type} {program : β → List Command} {items : List β}
    (h : ∀ x ∈ items, Nests false (program x)) : Nests false (items.flatMap program) := by
  induction items with
  | nil => exact nests_nil
  | cons x rest ih =>
      obtain ⟨hx, hrest⟩ := List.forall_mem_cons.mp h
      exact hx.append_false (ih hrest)

theorem Nests.enclosed {opening closing : String} {rest : List Char} (hx : Nests shows xs)
    (first last : Char) (hopening : opening.toList = first :: rest)
    (hfirst : isOpening first = true) (hrest : Nested false rest)
    (hclosing : closing.toList = [last]) (hlast : isClosing last = true) :
    Nests (first == '{') (.write opening :: xs ++ [.write closing]) := by
  intro indentation p
  rw [Printer.run_append]
  exact (hx indentation _).enclosed first last hopening hfirst hrest hclosing hlast

theorem Nests.parenthesized (hx : Nests shows xs) :
    Nests false (.write "(" :: xs ++ [.write ")"]) :=
  hx.enclosed '(' ')' rfl rfl nested_nil rfl rfl

theorem Nests.bracketed (hx : Nests shows xs) :
    Nests false (.write "[" :: xs ++ [.write "]"]) :=
  hx.enclosed '[' ']' rfl rfl nested_nil rfl rfl

theorem IsNested.append (hx : IsNested xs) (hy : IsNested ys) : IsNested (xs ++ ys) := by
  obtain ⟨a, hx⟩ := hx
  obtain ⟨b, hy⟩ := hy
  exact (hx.append hy).isNested

theorem isNested_intercalate {separator : String} (h : isBare separator = true)
    {items : List (List Command)} (hitems : ∀ item ∈ items, IsNested item) :
    IsNested (List.intercalate [.write separator] items) := by
  induction items with
  | nil => exact nests_nil.isNested
  | cons item rest ih =>
      obtain ⟨hitem, hrest⟩ := List.forall_mem_cons.mp hitems
      cases rest with
      | nil => simpa using hitem
      | cons next rest =>
          rw [List.intercalate_cons_cons]
          exact (hitem.append (nests_write h).isNested).append (ih hrest)

theorem exists_adds_runItems {items : List (List Command)}
    (hitems : ∀ item ∈ items, IsNested item) (indentation : Indentation) (p : Printer) :
    ∃ shows, p.Adds (p.runItems indentation items) shows := by
  induction items generalizing p with
  | nil => exact ⟨false, Printer.adds_false rfl⟩
  | cons item rest ih =>
      obtain ⟨⟨a, hitem⟩, hrest⟩ := List.forall_mem_cons.mp hitems
      obtain ⟨b, htail⟩ := ih hrest (p.newline.run indentation item)
      exact ⟨_, ((Printer.adds_newline p).trans (hitem indentation _)).trans htail⟩

-- A block shows its brace, whatever is in it.
theorem nests_block {items : List (List Command)} (hitems : ∀ item ∈ items, IsNested item) :
    Nests true [.block items] := by
  intro indentation p
  let opened := p.write indentation openBrace
  let filled := opened.deeper.runItems indentation items
  obtain ⟨shows, hfilled⟩ := exists_adds_runItems hitems indentation opened.deeper
  have hbefore : opened.Adds opened.deeper false := Printer.adds_false rfl
  have hafter : filled.Adds filled.shallower.newline false :=
    (Printer.adds_false (q := filled.shallower) rfl).trans (Printer.adds_newline _)
  exact ((hbefore.trans hfilled).trans hafter).enclosed '{' '}' rfl rfl nested_nil rfl rfl

end Command

end SwiftSource

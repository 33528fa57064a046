import SwiftSource.Proofs.Text.Token

namespace SwiftSource

-- A line of source text, and how many levels it is indented by.
structure Line where
  depth : Nat
  tokens : List Token
deriving DecidableEq

-- One level of indentation.
def Indentation.unit : Indentation → String
  | .spaces width => String.ofList (List.replicate width ' ')
  | .tabs => "\t"

theorem Indentation.margin_eq_join (indentation : Indentation) (depth : Nat) :
    indentation.margin depth = String.join (List.replicate depth indentation.unit) := by
  apply String.toList_injective
  induction depth with
  | zero => simp [Printer.margin_zero]
  | succ depth ih =>
      rw [List.replicate_succ, String.join_cons, String.toList_append, ← ih]
      cases indentation with
      | spaces width =>
          simp [margin, unit, Nat.succ_mul, Nat.add_comm (depth * width),
            List.replicate_append_replicate]
      | tabs => simp [margin, unit, List.replicate_succ]

namespace Line

def text (line : Line) : String :=
  Token.join line.tokens

def deeper (line : Line) : Line :=
  ⟨line.depth + 1, line.tokens⟩

-- Nothing is put in front of an empty line.
def shown (indentation : Indentation) (line : Line) : String :=
  if line.text = "" then ""
  else String.join (List.replicate line.depth indentation.unit) ++ line.text

-- A header and its body between braces.
def block (header : List Token) (body : List Line) : List Line :=
  ⟨0, header ++ [.word (" " ++ openBrace)]⟩ :: (body.map deeper ++ [⟨0, [.word closeBrace]⟩])

end Line

def layout (indentation : Indentation) (lines : List Line) : String :=
  "\n".intercalate (lines.map (Line.shown indentation))

namespace Printer

variable {indentation : Indentation}

-- Writes a line in one go.
def put (indentation : Indentation) (p : Printer) (line : Line) : Printer :=
  { write indentation { p with depth := p.depth + line.depth } line.text with depth := p.depth }

-- Writes lines one below the other, the first of them on a new line.
def below (indentation : Indentation) (p : Printer) (lines : List Line) : Printer :=
  lines.foldl (fun p line => p.newline.put indentation line) p

@[simp]
theorem below_nil (p : Printer) : p.below indentation [] = p := rfl

@[simp]
theorem below_cons (p : Printer) (line : Line) (lines : List Line) :
    p.below indentation (line :: lines) =
      (p.newline.put indentation line).below indentation lines := rfl

theorem below_append (p : Printer) (xs ys : List Line) :
    p.below indentation (xs ++ ys) = (p.below indentation xs).below indentation ys :=
  List.foldl_append

@[simp]
theorem depth_write (indentation : Indentation) (p : Printer) (text : String) :
    (p.write indentation text).depth = p.depth := by
  unfold write
  split_ifs <;> rfl

@[simp]
theorem put_zero (p : Printer) (tokens : List Token) :
    p.put indentation ⟨0, tokens⟩ = p.write indentation (Token.join tokens) := by
  have hdepth := depth_write indentation p (Token.join tokens)
  rw [put, Line.text, Nat.add_zero]
  generalize p.write indentation (Token.join tokens) = q at hdepth
  rw [← hdepth]

-- A level may be counted in the printer or in the line.
theorem put_deeper (p : Printer) (line : Line) :
    p.deeper.put indentation line = (p.put indentation line.deeper).deeper := by
  have hdepth : p.depth + 1 + line.depth = p.depth + (line.depth + 1) := by omega
  simp only [put, deeper, Line.deeper, Line.text, hdepth]

theorem below_deeper (p : Printer) (lines : List Line) :
    p.deeper.below indentation lines = (p.below indentation (lines.map Line.deeper)).deeper := by
  induction lines generalizing p with
  | nil => rfl
  | cons line rest ih =>
      have hput : p.deeper.newline.put indentation line =
          (p.newline.put indentation line.deeper).deeper := p.newline.put_deeper line
      rw [below_cons, hput, ih, List.map_cons, below_cons]

theorem output_newline_put {p : Printer} (h : p.depth = 0) (line : Line) :
    (p.newline.put indentation line).output =
      p.output ++ ("\n" ++ line.shown indentation) := by
  by_cases hempty : line.text = ""
  · simp [put, write, newline, Line.shown, hempty]
  · simp [put, write, newline, Line.shown, hempty, h, Indentation.margin_eq_join,
      String.append_assoc]

theorem output_below {p : Printer} (h : p.depth = 0) (lines : List Line) :
    (p.below indentation lines).output =
      p.output ++ String.join (lines.map fun line => "\n" ++ line.shown indentation) := by
  induction lines generalizing p with
  | nil => simp
  | cons line rest ih =>
      have hdepth : (p.newline.put indentation line).depth = 0 := h
      rw [below_cons, ih hdepth, output_newline_put h, List.map_cons, String.join_cons,
        String.append_assoc]

theorem depth_below (p : Printer) (lines : List Line) :
    (p.below indentation lines).depth = p.depth := by
  induction lines generalizing p with
  | nil => rfl
  | cons line rest ih => exact ih (p.newline.put indentation line)

theorem run_intercalate (p : Printer) (program : List Command) (items : List (List Command)) :
    p.run indentation (List.intercalate [.newline] (program :: items)) =
      (p.run indentation program).runItems indentation items := by
  induction items generalizing p program with
  | nil => simp [runItems]
  | cons next rest ih =>
      rw [List.intercalate_cons_cons, List.append_assoc, run_append, List.singleton_append, run,
        ih, exec, runItems]

end Printer

theorem layout_cons (indentation : Indentation) (line : Line) (lines : List Line) :
    layout indentation (line :: lines) =
      line.shown indentation ++
        String.join (lines.map fun line => "\n" ++ line.shown indentation) := by
  induction lines generalizing line with
  | nil => simp [layout]
  | cons next rest ih =>
      have hrest := ih next
      rw [layout, List.map_cons] at hrest
      rw [layout, List.map_cons, List.map_cons, String.intercalate_cons_cons, hrest,
        List.map_cons, String.join_cons]
      simp only [String.append_assoc]

theorem layout_append (indentation : Indentation) {xs ys : List Line} (hx : xs ≠ [])
    (hy : ys ≠ []) :
    layout indentation (xs ++ ys) = layout indentation xs ++ "\n" ++ layout indentation ys := by
  rw [layout, List.map_append]
  exact String.intercalate_append_of_ne_nil (by simpa using hx) (by simpa using hy)

-- Where every element has a line of its own, lines may be put together element by element.
theorem layout_flatMap (indentation : Indentation) {β : Type} {lines : β → List Line}
    (h : ∀ x, lines x ≠ []) (items : List β) :
    layout indentation (items.flatMap lines) =
      "\n".intercalate (items.map fun x => layout indentation (lines x)) := by
  induction items with
  | nil => rfl
  | cons x rest ih =>
      cases rest with
      | nil => simp
      | cons y rest =>
          have hrest : (y :: rest).flatMap lines ≠ [] := by simp [h y]
          rw [List.flatMap_cons, layout_append indentation (h x) hrest, ih]
          simp only [List.map_cons, String.intercalate_cons_cons]

namespace Command

variable {program : List Command} {opening : List Token} {items : List (List Command)}
  {lines : List Line}

-- A program that prints the lines, the first of them behind what is already on the line.
def Prints (program : List Command) (lines : List Line) : Prop :=
  ∃ first rest, lines = ⟨0, first⟩ :: rest ∧ ∀ (indentation : Indentation) (p : Printer),
    p.run indentation program =
      (p.write indentation (Token.join first)).below indentation rest

-- Programs that are run each on a new line.
def PrintsBelow (items : List (List Command)) (lines : List Line) : Prop :=
  ∀ (indentation : Indentation) (p : Printer),
    p.runItems indentation items = p.below indentation lines

theorem Prints.ne_nil (h : Prints program lines) : lines ≠ [] := by
  obtain ⟨first, rest, rfl, -⟩ := h
  exact List.cons_ne_nil _ _

theorem Spells.prints {tokens : List Token} (h : Spells program tokens) :
    Prints program [⟨0, tokens⟩] :=
  ⟨tokens, [], rfl, fun indentation p => h indentation p⟩

theorem printsBelow_nil : PrintsBelow [] [] := fun _ _ => rfl

theorem Prints.below (h : Prints program lines) {others : List Line}
    (hitems : PrintsBelow items others) : PrintsBelow (program :: items) (lines ++ others) := by
  obtain ⟨first, rest, rfl, hrun⟩ := h
  intro indentation p
  rw [Printer.runItems, hrun, hitems, Printer.below_append, Printer.below_cons, Printer.put_zero]

theorem PrintsBelow.exec_block (h : PrintsBelow items lines) (indentation : Indentation)
    (p : Printer) :
    p.exec indentation (.block items) =
      (p.write indentation openBrace).below indentation
        (lines.map Line.deeper ++ [⟨0, [.word closeBrace]⟩]) := by
  rw [Printer.exec, h, Printer.below_deeper, Printer.below_append, Printer.below_cons,
    Printer.below_nil, Printer.put_zero]
  simp [Printer.shallower, Printer.deeper]

-- What stands on the line in front of the brace belongs to the first line, with a blank behind.
theorem Spells.block (h : Spells program opening) (hitems : PrintsBelow items lines)
    (header : List Token) (hjoin : Token.join opening = Token.join header ++ " ") :
    Prints (program ++ [.block items]) (Line.block header lines) := by
  have hfirst : Token.join opening ++ openBrace =
      Token.join (header ++ [.word (" " ++ openBrace)]) := by
    simp [hjoin, String.append_assoc]
  refine ⟨_, _, rfl, fun indentation p => ?_⟩
  rw [Printer.run_append, h, Printer.run, hitems.exec_block, Printer.write_write, hfirst]
  rfl

-- The text of a program that starts at the margin.
theorem Prints.text_eq (h : Prints program lines) (indentation : Indentation) :
    text indentation program = layout indentation lines := by
  obtain ⟨first, rest, rfl, hrun⟩ := h
  have hfirst : (⟨0, first⟩ : Line).shown indentation = Token.join first := by
    simp [Line.shown, Line.text]
  rw [text, hrun, Printer.output_below (by simp [Printer.start]),
    Printer.output_write_of_depth_zero indentation rfl, layout_cons, hfirst, Printer.start,
    String.empty_append]

-- Items one below the other without braces. Their first line needs no break.
theorem Prints.intercalate (h : Prints program lines) {others : List Line}
    (hitems : PrintsBelow items others) :
    Prints (List.intercalate [.newline] (program :: items)) (lines ++ others) := by
  obtain ⟨first, rest, rfl, hrun⟩ := h
  refine ⟨first, rest ++ others, rfl, fun indentation p => ?_⟩
  rw [Printer.run_intercalate, hrun, hitems, Printer.below_append]

-- A program that appends the text, if it is run outside of all blocks.
def Appends (indentation : Indentation) (program : List Command) (appended : String) : Prop :=
  ∀ p : Printer, p.depth = 0 →
    (p.run indentation program).output = p.output ++ appended ∧
    (p.run indentation program).depth = 0

theorem Appends.append {indentation : Indentation} {xs ys : List Command} {a b : String}
    (hx : Appends indentation xs a) (hy : Appends indentation ys b) :
    Appends indentation (xs ++ ys) (a ++ b) := by
  intro p hp
  obtain ⟨hout, hdepth⟩ := hx p hp
  obtain ⟨hout', hdepth'⟩ := hy _ hdepth
  rw [Printer.run_append]
  exact ⟨by rw [hout', hout, String.append_assoc], hdepth'⟩

theorem Appends.text_eq {indentation : Indentation} {appended : String}
    (h : Appends indentation program appended) : text indentation program = appended := by
  rw [text, (h .start rfl).1, Printer.start, String.empty_append]

theorem Spells.appends (h : Spells program opening) (indentation : Indentation) :
    Appends indentation program (Token.join opening) := by
  intro p hp
  rw [h]
  exact ⟨Printer.output_write_of_depth_zero indentation hp _, by simpa using hp⟩

-- A block appends its lines, the brace first.
theorem PrintsBelow.exists_appends_block (h : PrintsBelow items lines)
    (indentation : Indentation) :
    ∃ tail, Appends indentation [.block items] (openBrace ++ tail) := by
  let behind : List Line := lines.map Line.deeper ++ [⟨0, [.word closeBrace]⟩]
  refine ⟨String.join (behind.map fun line => "\n" ++ line.shown indentation), fun p hp => ?_⟩
  have hopen : (p.write indentation openBrace).depth = 0 := by simpa using hp
  rw [Printer.run, Printer.run, h.exec_block]
  refine ⟨?_, by rw [Printer.depth_below, hopen]⟩
  rw [Printer.output_below hopen, Printer.output_write_of_depth_zero indentation hp,
    String.append_assoc]

end Command

end SwiftSource

import SwiftSource.Proofs.Layout.Lines

namespace SwiftSource

-- A text, and how deeply nested the call was that wrote it.
structure Writing where
  depth : Nat
  text : String
deriving DecidableEq

-- What reaches the printer once the nesting of a program is counted.
inductive Call where
  | write (writing : Writing)
  | newline
deriving DecidableEq

namespace Command

mutual

def calls (depth : Nat) : Command → List Call
  | .write text => [.write ⟨depth, text⟩]
  | .newline => [.newline]
  | .indented body => callsList (depth + 1) body
  | .block items =>
    .write ⟨depth, openBrace⟩ ::
      (callsItems (depth + 1) items ++ [.newline, .write ⟨depth, closeBrace⟩])

def callsList (depth : Nat) : List Command → List Call
  | [] => []
  | command :: rest => command.calls depth ++ callsList depth rest

def callsItems (depth : Nat) : List (List Command) → List Call
  | [] => []
  | item :: rest => .newline :: (callsList depth item ++ callsItems depth rest)

end

end Command

-- Cuts at the line breaks only. A break inside of a written text is not looked at.
def Call.lines : List Call → List (List Writing)
  | [] => [[]]
  | .newline :: rest => [] :: lines rest
  | .write writing :: rest => (lines rest).modifyHead (writing :: ·)

namespace Writing

def join (line : List Writing) : String :=
  String.join (line.map text)

-- The first text that is not empty decides on the margin of the line.
def shown (indentation : Indentation) (line : List Writing) : String :=
  match line.find? fun writing => writing.text ≠ "" with
  | none => ""
  | some first => String.join (List.replicate first.depth indentation.unit) ++ join line

end Writing

-- The text of a program, line by line.
def Command.page (indentation : Indentation) (program : List Command) : String :=
  "\n".intercalate ((Call.lines (callsList 0 program)).map (Writing.shown indentation))

namespace Writing

variable {indentation : Indentation}

@[simp]
theorem join_nil : join [] = "" := rfl

@[simp]
theorem join_cons (writing : Writing) (line : List Writing) :
    join (writing :: line) = writing.text ++ join line := by
  rw [join, List.map_cons, String.join_cons, join]

@[simp]
theorem shown_nil : shown indentation [] = "" := rfl

theorem shown_cons_of_empty {writing : Writing} (h : writing.text = "") (line : List Writing) :
    shown indentation (writing :: line) = shown indentation line := by
  simp [shown, h]

theorem shown_cons_of_ne {writing : Writing} (h : writing.text ≠ "") (line : List Writing) :
    shown indentation (writing :: line) =
      indentation.margin writing.depth ++ (writing.text ++ join line) := by
  simp [shown, h, Indentation.margin_eq_join]

-- What is left of the current line, and the lines below it. Once something is on the current
-- line, its margin is there too.
def below (indentation : Indentation) (atLineStart : Bool) : List (List Writing) → String
  | [] => ""
  | line :: rest =>
    (if atLineStart then shown indentation line else join line) ++
      String.join (rest.map fun line => "\n" ++ shown indentation line)

theorem below_true (lines : List (List Writing)) :
    below indentation true lines = "\n".intercalate (lines.map (shown indentation)) := by
  induction lines with
  | nil => rfl
  | cons line rest ih =>
      cases rest with
      | nil => simp [below]
      | cons next rest =>
          rw [List.map_cons, List.map_cons, String.intercalate_cons_cons, ← List.map_cons, ← ih]
          simp [below, String.append_assoc]

end Writing

theorem Call.exists_lines_eq_cons (calls : List Call) :
    ∃ line rest, lines calls = line :: rest := by
  induction calls with
  | nil => exact ⟨[], [], rfl⟩
  | cons call calls ih =>
      obtain ⟨line, rest, h⟩ := ih
      cases call with
      | newline => exact ⟨[], lines calls, rfl⟩
      | write writing => exact ⟨writing :: line, rest, by rw [lines, h, List.modifyHead_cons]⟩

namespace Printer

variable {indentation : Indentation}

-- The printer's own depth is not asked: each text brings its depth along.
def perform (indentation : Indentation) (p : Printer) : Call → Printer
  | .write writing =>
    { write indentation { p with depth := writing.depth } writing.text with depth := p.depth }
  | .newline => p.newline

def performAll (indentation : Indentation) (p : Printer) (calls : List Call) : Printer :=
  calls.foldl (perform indentation) p

@[simp]
theorem performAll_nil (p : Printer) : p.performAll indentation [] = p := rfl

@[simp]
theorem performAll_cons (p : Printer) (call : Call) (calls : List Call) :
    p.performAll indentation (call :: calls) =
      (p.perform indentation call).performAll indentation calls := rfl

@[simp]
theorem performAll_append (p : Printer) (xs ys : List Call) :
    p.performAll indentation (xs ++ ys) =
      (p.performAll indentation xs).performAll indentation ys :=
  List.foldl_append

-- A call leaves the depth as it is, so it may be changed before or after.
theorem performAll_deeper (p : Printer) (calls : List Call) :
    p.deeper.performAll indentation calls = (p.performAll indentation calls).deeper := by
  induction calls generalizing p with
  | nil => rfl
  | cons call rest ih =>
      have hcall : p.deeper.perform indentation call = (p.perform indentation call).deeper := by
        cases call with
        | write writing => rfl
        | newline => rfl
      rw [performAll_cons, hcall, ih, performAll_cons]

@[simp]
theorem shallower_deeper (p : Printer) : p.deeper.shallower = p := rfl

@[simp]
theorem perform_newline (p : Printer) : p.perform indentation .newline = p.newline := rfl

theorem perform_write {p : Printer} {depth : Nat} (h : p.depth = depth) (text : String) :
    p.perform indentation (.write ⟨depth, text⟩) = p.write indentation text := by
  have hdepth := p.depth_write indentation text
  subst h
  rw [perform]
  generalize p.write indentation text = q at hdepth
  rw [← hdepth]

@[simp]
theorem depth_performAll (p : Printer) (calls : List Call) :
    (p.performAll indentation calls).depth = p.depth := by
  induction calls generalizing p with
  | nil => rfl
  | cons call rest ih =>
      rw [performAll_cons, ih]
      cases call with
      | write writing => rfl
      | newline => rfl

-- Counting the nesting beforehand makes no difference. A level is entered for a part of the
-- program only, and is left again with the depth that was found.

mutual

theorem exec_eq_performAll (p : Printer) : ∀ command : Command,
    p.exec indentation command = p.performAll indentation (command.calls p.depth)
  | .write text => (perform_write rfl text).symm
  | .newline => rfl
  | .indented body => by
      rw [exec, run_eq_performAll p.deeper body, performAll_deeper, shallower_deeper]
      rfl
  | .block items => by
      let opened := p.write indentation openBrace
      let filled := opened.performAll indentation (Command.callsItems (p.depth + 1) items)
      have hopen : opened.depth = p.depth := p.depth_write indentation _
      have hitems : opened.deeper.runItems indentation items = filled.deeper := by
        have hdeeper : opened.deeper.depth = p.depth + 1 := congrArg (· + 1) hopen
        rw [runItems_eq_performAll opened.deeper items, performAll_deeper, hdeeper]
      have hclose : filled.newline.depth = p.depth := (depth_performAll _ _).trans hopen
      calc p.exec indentation (.block items)
          = (opened.deeper.runItems indentation items).shallower.newline.write
              indentation closeBrace := by rw [exec]
        _ = filled.newline.write indentation closeBrace := by rw [hitems, shallower_deeper]
        _ = p.performAll indentation ((Command.block items).calls p.depth) := by
          rw [Command.calls, performAll_cons, perform_write rfl, performAll_append,
            performAll_cons, performAll_cons, performAll_nil, perform_newline,
            perform_write hclose]

theorem run_eq_performAll (p : Printer) : ∀ program : List Command,
    p.run indentation program = p.performAll indentation (Command.callsList p.depth program)
  | [] => rfl
  | command :: rest => by
      rw [run, exec_eq_performAll p command, run_eq_performAll _ rest, depth_performAll,
        Command.callsList, performAll_append]

theorem runItems_eq_performAll (p : Printer) : ∀ items : List (List Command),
    p.runItems indentation items = p.performAll indentation (Command.callsItems p.depth items)
  | [] => rfl
  | item :: rest => by
      have hdepth : p.newline.depth = p.depth := rfl
      rw [runItems, run_eq_performAll p.newline item, runItems_eq_performAll _ rest,
        depth_performAll, hdepth, Command.callsItems, performAll_cons, performAll_append,
        perform_newline]

end

-- What one call adds to the text, given the lines that the calls behind it make.
theorem output_perform (p : Printer) (call : Call) (calls : List Call) :
    (p.perform indentation call).output ++
        Writing.below indentation (p.perform indentation call).atLineStart (Call.lines calls) =
      p.output ++ Writing.below indentation p.atLineStart (Call.lines (call :: calls)) := by
  obtain ⟨line, rest, hlines⟩ := Call.exists_lines_eq_cons calls
  cases call with
  | newline =>
      rw [perform_newline, newline, Call.lines, hlines]
      cases p.atLineStart <;> simp [Writing.below, String.append_assoc]
  | write writing =>
      rw [Call.lines, hlines, List.modifyHead_cons, perform, write]
      by_cases hempty : writing.text = ""
      · simp [hempty, Writing.below, Writing.shown_cons_of_empty hempty]
      · cases hstart : p.atLineStart with
        | true =>
            simp [hempty, Writing.below, Writing.shown_cons_of_ne hempty, String.append_assoc]
        | false => simp [hempty, Writing.below, String.append_assoc]

theorem output_performAll (p : Printer) (calls : List Call) :
    (p.performAll indentation calls).output =
      p.output ++ Writing.below indentation p.atLineStart (Call.lines calls) := by
  induction calls generalizing p with
  | nil => cases hstart : p.atLineStart <;> simp [Call.lines, Writing.below]
  | cons call rest ih => rw [performAll_cons, ih, output_perform]

end Printer

-- Indentation is decided where a line gets its first text. Every call comes back to the depth
-- at which it was made, and takes back nothing of what is printed.
theorem indentation_is_lazy (indentation : Indentation) :
    (∀ program : List Command,
      Command.text indentation program = Command.page indentation program) ∧
    (∀ (p : Printer) (command : Command),
      (p.exec indentation command).depth = p.depth ∧
      ∃ added, (p.exec indentation command).output = p.output ++ added) ∧
    -- the levels that are left again are there to be left
    (∀ (p : Printer) (body : List Command) (items : List (List Command)),
      (p.deeper.run indentation body).depth = p.depth + 1 ∧
      (p.deeper.runItems indentation items).depth = p.depth + 1) := by
  refine ⟨fun program => ?_, fun p command => ?_, fun p body items => ?_⟩
  · rw [Command.text, Printer.run_eq_performAll, Printer.output_performAll, Printer.start,
      String.empty_append, Writing.below_true, Command.page]
  · rw [Printer.exec_eq_performAll]
    exact ⟨Printer.depth_performAll _ _, _, Printer.output_performAll _ _⟩
  · rw [Printer.run_eq_performAll, Printer.runItems_eq_performAll]
    exact ⟨Printer.depth_performAll _ _, Printer.depth_performAll _ _⟩

-- The break inside of the first text starts no line, and the last line is begun outside.
example : Command.page (.spaces 2)
    [.indented [.write "a\nb", .newline, .write ""], .write "c"] = "  a\nb\nc" := by
  decide +kernel

end SwiftSource

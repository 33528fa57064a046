namespace SwiftSource

-- What one level of indentation is made of.
inductive Indentation where
  | spaces (width : Nat)
  | tabs
deriving DecidableEq

namespace Indentation

instance : Inhabited Indentation := ⟨.spaces 4⟩

-- The text in front of a line at the given depth. However wide a level is, nothing is in
-- front of a line at depth zero.
def margin : Indentation → Nat → String
  | .spaces width, depth => String.ofList (List.replicate (depth * width) ' ')
  | .tabs, depth => String.ofList (List.replicate depth '\t')

end Indentation

-- The braces around a block.

def openBrace : String := "\x7b"

def closeBrace : String := "\x7d"

@[simp]
theorem toList_openBrace : openBrace.toList = ['{'] := rfl

@[simp]
theorem toList_closeBrace : closeBrace.toList = ['}'] := rfl

-- A program for the printer. A block writes its items between braces, each on a line of its
-- own one level deeper.
inductive Command where
  | write (text : String)
  | newline
  | indented (body : List Command)
  | block (items : List (List Command))

-- The text so far, the current depth, and whether the current line is still empty.
structure Printer where
  output : String
  depth : Nat
  atLineStart : Bool
deriving DecidableEq

namespace Printer

def start : Printer := ⟨"", 0, true⟩

-- The margin is written together with the first non-empty text of a line, so a line on
-- which nothing is written stays empty.
def write (indentation : Indentation) (printer : Printer) (text : String) : Printer :=
  if text = "" then printer
  else if printer.atLineStart then
    ⟨printer.output ++ indentation.margin printer.depth ++ text, printer.depth, false⟩
  else
    ⟨printer.output ++ text, printer.depth, false⟩

def newline (printer : Printer) : Printer :=
  ⟨printer.output ++ "\n", printer.depth, true⟩

def deeper (printer : Printer) : Printer :=
  { printer with depth := printer.depth + 1 }

def shallower (printer : Printer) : Printer :=
  { printer with depth := printer.depth - 1 }

mutual

def exec (indentation : Indentation) (printer : Printer) : Command → Printer
  | .write text => printer.write indentation text
  | .newline => printer.newline
  | .indented body => (run indentation printer.deeper body).shallower
  | .block items =>
    let opened := (printer.write indentation openBrace).deeper
    let closing := (runItems indentation opened items).shallower.newline
    closing.write indentation closeBrace

def run (indentation : Indentation) (printer : Printer) : List Command → Printer
  | [] => printer
  | command :: rest => run indentation (printer.exec indentation command) rest

def runItems (indentation : Indentation) (printer : Printer) : List (List Command) → Printer
  | [] => printer
  | item :: rest => runItems indentation (run indentation printer.newline item) rest

end

end Printer

-- The text that a program prints from the start.
def Command.text (indentation : Indentation) (program : List Command) : String :=
  (Printer.start.run indentation program).output

end SwiftSource

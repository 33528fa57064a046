import SwiftSource.Layout.Printer

namespace SwiftSource.Demo

-- What the command line asks for.
structure Options where
  indent : Option Nat := none
  tabs : Bool := false
  validate : Bool := false
  verbose : Bool := false
deriving DecidableEq

namespace Options

def digit? (c : Char) : Option Nat :=
  if '0' ≤ c ∧ c ≤ '9' then some (c.toNat - '0'.toNat) else none

def digitsFrom? (value : Nat) : List Char → Option Nat
  | [] => some value
  | c :: rest => do digitsFrom? (10 * value + (← digit? c)) rest

-- Decimal digits after at most one plus sign, up to the largest 64-bit number.
def number? (text : String) : Option Nat := do
  let digits := match text.toList with
    | '+' :: rest => rest
    | cs => cs
  guard (digits ≠ [])
  let value ← digitsFrom? 0 digits
  guard (value < UInt64.size)
  return value

-- An argument that stands for itself. No option may be given twice.
def accept? (options : Options) (argument : String) : Option Options :=
  if argument = "--tabs" then
    if options.tabs then none else some { options with tabs := true }
  else if argument = "--validate" then
    if options.validate then none else some { options with validate := true }
  else if argument = "--verbose" then
    if options.verbose then none else some { options with verbose := true }
  else do
    let value ← "--indent=".toList.isPrefixOf? argument.toList
    guard (options.indent = none)
    return { options with indent := some (← number? (String.ofList value)) }

-- Nothing may follow the end mark, and a bare `--indent` takes the next argument.
def parseFrom (options : Options) : List String → Option Options
  | [] => some options
  | [argument] => if argument = "--" then some options else accept? options argument
  | argument :: next :: rest =>
    if argument = "--indent" ∧ options.indent = none then do
      parseFrom { options with indent := some (← number? next) } rest
    else do
      parseFrom (← accept? options argument) (next :: rest)

def parse (arguments : List String) : Option Options :=
  parseFrom {} arguments

def usage : String :=
  "options: [--indent N] [--tabs] [--validate] [--verbose]"

def indentation (options : Options) : Indentation :=
  if options.tabs then .tabs else .spaces (options.indent.getD 4)

end Options

end SwiftSource.Demo

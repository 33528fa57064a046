import SwiftSource.Node.Basic
import SwiftSource.Proofs.Double.Reading
import SwiftSource.Proofs.Parse.Token

namespace SwiftSource.Parse

open Double (Numeral)

-- A recursive-descent parser of printed expressions. It returns the node at the front of a
-- text and what is left. Each round goes on with a shorter text.

-- A numeral without a fraction and without a power of ten is an integer.
def numberNode (sign : List Char) (n : Numeral) : ExprNode :=
  if n.fraction.isEmpty && n.power.isEmpty then .integer (String.ofList (sign ++ n.chars))
  else .float (String.ofList (sign ++ n.chars))

def number (sign cs : List Char) : ExprNode × List Char :=
  (numberNode sign (Numeral.scan cs).1, (Numeral.scan cs).2)

def wordNode (w : String) : ExprNode :=
  if w = "true" then .bool true
  else if w = "false" then .bool false
  else if w = "nil" then .nil
  else .reference w

-- A reference in front of a colon is the label of an argument.
def label? : ExprNode → List Char → Option (String × List Char)
  | .reference label, rest => (expect [':', ' '] rest).map fun rest => (label, rest)
  | _, _ => none

-- The other half of a ternary operator.
def colon? (op : String) (cs : List Char) : Option (List Char) :=
  if op = "?" then expect [' ', ':', ' '] cs else none

mutual

def expr (cs : List Char) : Option (ExprNode × List Char) := do
  let (left, rest) ← operand cs
  match operator rest with
  | none => return (left, rest)
  | some (op, rest) => after cs rest fun _ => do
    let (right, rest) ← operand rest
    match colon? op rest with
    | none => return (.infixOp left op right, rest)
    | some rest => after cs rest fun _ => do
      let (other, rest) ← operand rest
      return (.ternary left right other, rest)
termination_by (cs.length, 2)

def operand (cs : List Char) : Option (ExprNode × List Char) := do
  let (node, rest) ← atom cs
  after cs rest fun _ => suffixes node rest
termination_by (cs.length, 1)

def atom (cs : List Char) : Option (ExprNode × List Char) :=
  if starts Char.isDigit cs then return number [] cs
  else if starts isWordChar cs then do
    let (w, rest) ← word cs
    match expect ['('] rest with
    | none => return (wordNode w, rest)
    | some rest => after cs rest fun _ => do
      let (entries, rest) ← arguments ')' rest
      return (.call (.reference w) entries none, rest)
  else
    match cs with
    | '(' :: rest => do
      let (inner, rest) ← expr rest
      let rest ← expect [')'] rest
      return (.parenthesized inner, rest)
    | '[' :: rest => do
      let (entries, rest) ← arguments ']' rest
      return (.array (entries.map fun entry => ⟨entry.element.value, entry.comma⟩), rest)
    | '"' :: rest => do
      let (text, rest) ← quoted rest
      return (.string (String.ofList text), rest)
    | '-' :: rest =>
      if starts Char.isDigit rest then return number ['-'] rest
      else do
        let (inner, rest) ← operand rest
        return (.prefixOp "-" inner, rest)
    | _ => none
termination_by (cs.length, 0)

-- The members, calls and loops that follow a base.
def suffixes (base : ExprNode) (cs : List Char) : Option (ExprNode × List Char) :=
  match expect ['.'] cs with
  | none => return (base, cs)
  | some rest => do
    let (w, rest) ← word rest
    match expect ['('] rest with
    | some rest => after cs rest fun _ => do
      let (entries, rest) ← arguments ')' rest
      after cs rest fun _ => suffixes (.call (.member base w) entries none) rest
    | none =>
      match expect [' ', '{', ' '] rest with
      | none => after cs rest fun _ => suffixes (.member base w) rest
      | some rest => do
        let (element, rest) ← word rest
        let rest ← expect [' ', 'i', 'n', ' '] rest
        after cs rest fun _ => do
          let (body, rest) ← expr rest
          let rest ← expect [' ', '}'] rest
          after cs rest fun _ =>
            suffixes (.call (.member base w) [] (some ⟨[⟨element, false⟩], [.expr body]⟩)) rest
termination_by (cs.length, 0)

def argument (cs : List Char) : Option (Argument ExprNode × List Char) := do
  let (first, rest) ← expr cs
  match label? first rest with
  | none => return (⟨none, first⟩, rest)
  | some (label, rest) => after cs rest fun _ => do
    let (value, rest) ← expr rest
    return (⟨some label, value⟩, rest)
termination_by (cs.length, 3)

def arguments (close : Char) (cs : List Char) :
    Option (List (Separated (Argument ExprNode)) × List Char) :=
  if starts (· == close) cs then return ([], cs.tail)
  else do
    let (first, rest) ← argument cs
    match expect [',', ' '] rest with
    | none => do
      let rest ← expect [close] rest
      return ([⟨first, false⟩], rest)
    | some rest => after cs rest fun _ => do
      let (others, rest) ← arguments close rest
      return (⟨first, true⟩ :: others, rest)
termination_by (cs.length, 4)

end

end SwiftSource.Parse

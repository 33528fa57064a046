import SwiftSource.Relabel

namespace SwiftSource

-- A stack of expressions, the top first.
abbrev Stack := List (Expr Mark)

-- An operation on the stack. Operands lie in source order, the last one on top.
inductive Stack.Step where
  | push (expr : Expr Mark)
  | pop
  | dup
  | swap
  | property (name : String)
  | inline (name : String) (type : Option String)
  | relabel (relabel : Relabel)
  | binary (operator : String)
  | loop (element : String)
  | conditional
  | array (count : Nat)
  | call (name : String) (labels : List (Option String))
  | method (name : String) (labels : List (Option String))

namespace Stack

-- The top `count` operands in source order, and what lies below them.
def take? (stack : Stack) (count : Nat) : Option (List (Expr Mark) × Stack) :=
  if count ≤ stack.length then some ((stack.take count).reverse, stack.drop count) else none

def arguments (labels : List (Option String)) (values : List (Expr Mark)) :
    List (Argument (Expr Mark)) :=
  List.zipWith Argument.mk labels values

-- Fails when there are too few operands.
def run? : Step → Stack → Option Stack
  | .push e, stack => some (e :: stack)
  | .pop, _ :: rest => some rest
  | .dup, e :: rest => some (e :: e :: rest)
  | .swap, top :: next :: rest => some (next :: top :: rest)
  | .property name, base :: rest => some (.property base name :: rest)
  | .inline name type, e :: rest => some (.inline name type e :: rest)
  | .relabel relabel, e :: rest => some ((e.mapAccum relabel.step relabel.start).1 :: rest)
  | .binary operator, right :: left :: rest => some (.binary left operator right :: rest)
  | .loop element, body :: collection :: rest => some (.loop element collection body :: rest)
  | .conditional, elseBranch :: thenBranch :: condition :: rest =>
    some (.conditional condition thenBranch elseBranch :: rest)
  | .array count, stack => do
    let (elements, rest) ← stack.take? count
    return .array elements :: rest
  | .call name labels, stack => do
    let (values, rest) ← stack.take? labels.length
    return .call name (arguments labels values) :: rest
  | .method name labels, stack => do
    let (values, below) ← stack.take? labels.length
    match below with
    | base :: rest => some (.method base name (arguments labels values) :: rest)
    | [] => none
  | _, _ => none

end Stack

end SwiftSource

import SwiftSource.Tree.Basic

namespace SwiftSource

-- The words that stand for a value in a hash: a number for the constructor, then the fields
-- in order. A list is preceded by its length and a text is followed by a byte that no text
-- holds, so where one value ends is never in doubt.
class Fingerprint (α : Type) where
  words : α → List Nat

namespace Fingerprint

instance : Fingerprint Bool := ⟨fun b => [b.toNat]⟩

instance : Fingerprint String where
  words text := text.toList.flatMap (fun c => (String.utf8EncodeChar c).map UInt8.toNat) ++ [255]

instance {α : Type} [Fingerprint α] : Fingerprint (Option α) where
  words
    | none => [0]
    | some x => 1 :: words x

instance {α : Type} [Fingerprint α] : Fingerprint (List α) where
  words xs := xs.length :: xs.flatMap words

instance : Fingerprint Literal where
  words
    | .int value => [0, value.toUInt64.toNat]
    | .double value => [1, value.bits.toNat]
    | .string value => 2 :: words value
    | .bool value => 3 :: words value
    | .nil => [4]

instance : Fingerprint Binding where
  words
    | .constant => [0]
    | .variable => [1]

instance : Fingerprint Access where
  words
    | .everyone => [0]
    | .internal => [1]
    | .file => [2]
    | .scope => [3]

instance : Fingerprint Parameter where
  words p :=
    words p.label ++ words p.name ++ words p.type ++ words p.isInout ++ words p.defaultValue

-- Folds the words into one number.
def digest (words : List Nat) : UInt64 :=
  words.foldl (fun h word => mixHash h (hash word)) 7

end Fingerprint

instance : Hashable Literal := ⟨fun l => Fingerprint.digest (Fingerprint.words l)⟩

variable {α : Type} [Fingerprint α]

namespace Expr

mutual

def words : Expr α → List Nat
  | .literal value => 0 :: Fingerprint.words value
  | .variable name payload => 1 :: Fingerprint.words name ++ Fingerprint.words payload
  | .conditional condition thenBranch elseBranch =>
    2 :: condition.words ++ thenBranch.words ++ elseBranch.words
  | .loop element collection body =>
    3 :: Fingerprint.words element ++ collection.words ++ body.words
  | .call name arguments =>
    4 :: Fingerprint.words name ++ arguments.length :: argumentWords arguments
  | .method base name arguments =>
    5 :: base.words ++ Fingerprint.words name ++ arguments.length :: argumentWords arguments
  | .binary left operator right =>
    6 :: left.words ++ Fingerprint.words operator ++ right.words
  | .property base name => 7 :: base.words ++ Fingerprint.words name
  | .inline name type initializer =>
    8 :: Fingerprint.words name ++ Fingerprint.words type ++ initializer.words
  | .array elements => 9 :: elements.length :: elementWords elements

def argumentWords : List (Argument (Expr α)) → List Nat
  | [] => []
  | ⟨label, value⟩ :: rest => Fingerprint.words label ++ value.words ++ argumentWords rest

def elementWords : List (Expr α) → List Nat
  | [] => []
  | value :: rest => value.words ++ elementWords rest

end

instance : Fingerprint (Expr α) := ⟨words⟩

instance : Hashable (Expr α) := ⟨fun e => Fingerprint.digest e.words⟩

end Expr

namespace Stmt

mutual

-- The bindings take the first two numbers.
def words : Stmt α → List Nat
  | .bind binding name type initializer =>
    Fingerprint.words binding ++ Fingerprint.words name ++ Fingerprint.words type ++
      initializer.words
  | .guard condition elseBody => 2 :: condition.words ++ elseBody.length :: bodyWords elseBody
  | .branch condition thenBody elseBody =>
    3 :: condition.words ++ thenBody.length :: bodyWords thenBody ++ elseWords elseBody
  | .returns value => 4 :: Fingerprint.words value
  | .throws error => 5 :: error.words
  | .defer body => 6 :: body.length :: bodyWords body
  | .expression value => 7 :: value.words

def bodyWords : List (Stmt α) → List Nat
  | [] => []
  | stmt :: rest => stmt.words ++ bodyWords rest

def elseWords : Option (List (Stmt α)) → List Nat
  | none => [0]
  | some body => 1 :: body.length :: bodyWords body

end

instance : Fingerprint (Stmt α) := ⟨words⟩

instance : Hashable (Stmt α) := ⟨fun s => Fingerprint.digest s.words⟩

end Stmt

instance : Fingerprint (FunctionDecl α) where
  words d :=
    Fingerprint.words d.access ++ Fingerprint.words d.name ++ Fingerprint.words d.parameters ++
      Fingerprint.words d.isAsync ++ Fingerprint.words d.canThrow ++
      Fingerprint.words d.returnType ++ Fingerprint.words d.body

instance : Fingerprint (PropertyDecl α) where
  words d :=
    Fingerprint.words d.access ++ Fingerprint.words d.name ++ Fingerprint.words d.type ++
      Fingerprint.words d.isStatic ++ Fingerprint.words (d.binding == .constant) ++
      Fingerprint.words d.initializer

instance : Fingerprint (Setter α) where
  words d := Fingerprint.words d.parameter ++ Fingerprint.words d.body

instance : Fingerprint (ComputedDecl α) where
  words d :=
    Fingerprint.words d.name ++ Fingerprint.words d.type ++ Fingerprint.words d.isStatic ++
      Fingerprint.words d.getter ++ Fingerprint.words d.setter

instance : Fingerprint (InitializerDecl α) where
  words d :=
    Fingerprint.words d.access ++ Fingerprint.words d.parameters ++
      Fingerprint.words d.canThrow ++ Fingerprint.words d.body

namespace Decl

mutual

def words : Decl α → List Nat
  | .function d => 0 :: Fingerprint.words d
  | .property d => 1 :: Fingerprint.words d
  | .computed d => 2 :: Fingerprint.words d
  | .extension ⟨type, conformances, members⟩ =>
    3 :: Fingerprint.words type ++ Fingerprint.words conformances ++
      members.length :: memberWords members
  | .struct ⟨access, name, conformances, members⟩ =>
    4 :: Fingerprint.words access ++ Fingerprint.words name ++ Fingerprint.words conformances ++
      members.length :: memberWords members
  | .initializer d => 5 :: Fingerprint.words d

def memberWords : List (Decl α) → List Nat
  | [] => []
  | member :: rest => member.words ++ memberWords rest

end

instance : Fingerprint (Decl α) := ⟨words⟩

instance : Hashable (Decl α) := ⟨fun d => Fingerprint.digest d.words⟩

end Decl

end SwiftSource

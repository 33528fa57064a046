import SwiftSource.Keyword

namespace SwiftSource

-- A value handed to a call, with or without a label.
structure Argument (ε : Type) where
  label : Option String
  value : ε
deriving DecidableEq

inductive Binding where
  | constant
  | variable
deriving DecidableEq

def Binding.keyword : Binding → String
  | .constant => "let"
  | .variable => "var"

-- A parameter of a function or an initializer. The label is what a caller writes.
structure Parameter where
  label : Option String := none
  name : String
  type : String
  isInout : Bool := false
  defaultValue : Option String := none
deriving DecidableEq

-- Who may refer to a declaration: everyone, the module, the file, or the enclosing scope.
inductive Access where
  | everyone
  | internal
  | file
  | scope
deriving DecidableEq, Inhabited

-- Internal access is the default of the language and has no keyword.
def Access.modifiers : Access → Modifiers
  | .everyone => .single "public"
  | .internal => .empty
  | .file => .single "fileprivate"
  | .scope => .single "private"

-- An element of a list in source text, and whether a comma follows it.
structure Separated (α : Type) where
  element : α
  comma : Bool
deriving DecidableEq

variable {α : Type}

-- A comma follows every element but the last.
def separate : List α → List (Separated α)
  | [] => []
  | [x] => [⟨x, false⟩]
  | x :: y :: rest => ⟨x, true⟩ :: separate (y :: rest)

@[simp]
theorem map_element_separate (xs : List α) : (separate xs).map Separated.element = xs := by
  induction xs with
  | nil => rfl
  | cons x rest ih =>
    cases rest with
    | nil => rfl
    | cons y rest => simp only [separate, List.map_cons, ih]

end SwiftSource

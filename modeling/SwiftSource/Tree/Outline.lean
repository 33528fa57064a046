namespace SwiftSource

-- A tree of headings.
inductive Outline (β : Type) where
  | entry (head : β) (parts : List (Outline β))

namespace Outline

variable {β : Type}

def parts : Outline β → List (Outline β)
  | .entry _ parts => parts

mutual

-- The headings in order, each with its depth. A heading at which `stop` holds is listed, and
-- nothing below it.
def visits (stop : β → Bool) (depth : Nat) : Outline β → List (Nat × β)
  | .entry head parts =>
    (depth, head) :: if stop head then [] else visitsList stop (depth + 1) parts

def visitsList (stop : β → Bool) (depth : Nat) : List (Outline β) → List (Nat × β)
  | [] => []
  | outline :: rest => outline.visits stop depth ++ visitsList stop depth rest

end

-- Every heading, in order.
def heads (outline : Outline β) : List β :=
  (outline.visits (fun _ => false) 0).map Prod.snd

end Outline

end SwiftSource

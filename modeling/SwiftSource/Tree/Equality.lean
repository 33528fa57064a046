import SwiftSource.Tree.Basic

namespace SwiftSource

-- Equality of trees, given the equality of their payloads. Doubles are compared by bits.

variable {α : Type} [BEq α]

namespace Expr

mutual

def beq : Expr α → Expr α → Bool
  | .literal a, .literal b => a == b
  | .variable n p, .variable n' p' => n == n' && p == p'
  | .conditional c t e, .conditional c' t' e' => c.beq c' && t.beq t' && e.beq e'
  | .loop x c b, .loop x' c' b' => x == x' && c.beq c' && b.beq b'
  | .call n as, .call n' as' => n == n' && beqArguments as as'
  | .method b n as, .method b' n' as' => b.beq b' && n == n' && beqArguments as as'
  | .binary l o r, .binary l' o' r' => l.beq l' && o == o' && r.beq r'
  | .property b n, .property b' n' => b.beq b' && n == n'
  | .inline n t i, .inline n' t' i' => n == n' && t == t' && i.beq i'
  | .array es, .array es' => beqElements es es'
  | _, _ => false

def beqArguments : List (Argument (Expr α)) → List (Argument (Expr α)) → Bool
  | [], [] => true
  | ⟨l, v⟩ :: as, ⟨l', v'⟩ :: as' => l == l' && v.beq v' && beqArguments as as'
  | _, _ => false

def beqElements : List (Expr α) → List (Expr α) → Bool
  | [], [] => true
  | e :: es, e' :: es' => e.beq e' && beqElements es es'
  | _, _ => false

end

instance : BEq (Expr α) := ⟨beq⟩

end Expr

namespace Stmt

mutual

def beq : Stmt α → Stmt α → Bool
  | .bind b n t i, .bind b' n' t' i' => b == b' && n == n' && t == t' && i == i'
  | .guard c b, .guard c' b' => c == c' && beqList b b'
  | .branch c t e, .branch c' t' e' => c == c' && beqList t t' && beqOption e e'
  | .returns v, .returns v' => v == v'
  | .throws e, .throws e' => e == e'
  | .defer b, .defer b' => beqList b b'
  | .expression v, .expression v' => v == v'
  | _, _ => false

def beqList : List (Stmt α) → List (Stmt α) → Bool
  | [], [] => true
  | s :: ss, s' :: ss' => s.beq s' && beqList ss ss'
  | _, _ => false

def beqOption : Option (List (Stmt α)) → Option (List (Stmt α)) → Bool
  | none, none => true
  | some b, some b' => beqList b b'
  | _, _ => false

end

instance : BEq (Stmt α) := ⟨beq⟩

end Stmt

instance : BEq (FunctionDecl α) where
  beq d d' :=
    d.access == d'.access && d.name == d'.name && d.parameters == d'.parameters &&
      d.isAsync == d'.isAsync && d.canThrow == d'.canThrow && d.returnType == d'.returnType &&
      d.body == d'.body

instance : BEq (PropertyDecl α) where
  beq d d' :=
    d.access == d'.access && d.name == d'.name && d.type == d'.type &&
      d.isStatic == d'.isStatic && d.binding == d'.binding && d.initializer == d'.initializer

instance : BEq (Setter α) where
  beq d d' := d.parameter == d'.parameter && d.body == d'.body

instance : BEq (ComputedDecl α) where
  beq d d' :=
    d.name == d'.name && d.type == d'.type && d.isStatic == d'.isStatic &&
      d.getter == d'.getter && d.setter == d'.setter

instance : BEq (InitializerDecl α) where
  beq d d' :=
    d.access == d'.access && d.parameters == d'.parameters && d.canThrow == d'.canThrow &&
      d.body == d'.body

namespace Decl

mutual

def beq : Decl α → Decl α → Bool
  | .function d, .function d' => d == d'
  | .property d, .property d' => d == d'
  | .computed d, .computed d' => d == d'
  | .extension ⟨t, c, ms⟩, .extension ⟨t', c', ms'⟩ => t == t' && c == c' && beqList ms ms'
  | .struct ⟨a, n, c, ms⟩, .struct ⟨a', n', c', ms'⟩ =>
    a == a' && n == n' && c == c' && beqList ms ms'
  | .initializer d, .initializer d' => d == d'
  | _, _ => false

def beqList : List (Decl α) → List (Decl α) → Bool
  | [], [] => true
  | d :: ds, d' :: ds' => d.beq d' && beqList ds ds'
  | _, _ => false

end

instance : BEq (Decl α) := ⟨beq⟩

end Decl

end SwiftSource

import SwiftSource.Node.Basic

namespace SwiftSource

namespace NodeEquality

mutual

def expr : ExprNode → ExprNode → Bool
  | .integer a, .integer b => a == b
  | .float a, .float b => a == b
  | .string a, .string b => a == b
  | .bool a, .bool b => a == b
  | .nil, .nil => true
  | .reference a, .reference b => a == b
  | .ternary a b c, .ternary a' b' c' => expr a a' && expr b b' && expr c c'
  | .infixOp l o r, .infixOp l' o' r' => expr l l' && o == o' && expr r r'
  | .prefixOp o e, .prefixOp o' e' => o == o' && expr e e'
  | .member e n, .member e' n' => expr e e' && n == n'
  | .call f as c, .call f' as' c' => expr f f' && arguments as as' && trailing c c'
  | .closure c, .closure c' => closure c c'
  | .array es, .array es' => elements es es'
  | .parenthesized e, .parenthesized e' => expr e e'
  | _, _ => false

def optionalExpr : Option ExprNode → Option ExprNode → Bool
  | none, none => true
  | some e, some e' => expr e e'
  | _, _ => false

def arguments :
    List (Separated (Argument ExprNode)) → List (Separated (Argument ExprNode)) → Bool
  | [], [] => true
  | ⟨⟨l, v⟩, c⟩ :: as, ⟨⟨l', v'⟩, c'⟩ :: as' =>
    l == l' && expr v v' && c == c' && arguments as as'
  | _, _ => false

def elements : List (Separated ExprNode) → List (Separated ExprNode) → Bool
  | [], [] => true
  | ⟨v, c⟩ :: es, ⟨v', c'⟩ :: es' => expr v v' && c == c' && elements es es'
  | _, _ => false

def closure : Closure ItemNode → Closure ItemNode → Bool
  | ⟨ps, ss⟩, ⟨ps', ss'⟩ => ps == ps' && items ss ss'

def trailing : Option (Closure ItemNode) → Option (Closure ItemNode) → Bool
  | none, none => true
  | some c, some c' => closure c c'
  | _, _ => false

def stmt : StmtNode → StmtNode → Bool
  | .guard c b, .guard c' b' => expr c c' && items b b'
  | .branch c b e, .branch c' b' e' => expr c c' && items b b' && optionalItems e e'
  | .returns v, .returns v' => optionalExpr v v'
  | .throws v, .throws v' => expr v v'
  | .defer b, .defer b' => items b b'
  | _, _ => false

def decl : DeclNode → DeclNode → Bool
  | .variable m b n t i as, .variable m' b' n' t' i' as' =>
    m == m' && b == b' && n == n' && t == t' && optionalExpr i i' && optionalAccessors as as'
  | .function m n ps e r b, .function m' n' ps' e' r' b' =>
    m == m' && n == n' && ps == ps' && e == e' && r == r' && items b b'
  | .initializer m ps e b, .initializer m' ps' e' b' =>
    m == m' && ps == ps' && e == e' && items b b'
  | .extension t i ms, .extension t' i' ms' => t == t' && i == i' && members ms ms'
  | .struct m n i ms, .struct m' n' i' ms' => m == m' && n == n' && i == i' && members ms ms'
  | _, _ => false

def members : List DeclNode → List DeclNode → Bool
  | [], [] => true
  | d :: ds, d' :: ds' => decl d d' && members ds ds'
  | _, _ => false

def accessors : List (Accessor ItemNode) → List (Accessor ItemNode) → Bool
  | [], [] => true
  | ⟨k, p, b⟩ :: as, ⟨k', p', b'⟩ :: as' =>
    k == k' && p == p' && items b b' && accessors as as'
  | _, _ => false

def optionalAccessors :
    Option (List (Accessor ItemNode)) → Option (List (Accessor ItemNode)) → Bool
  | none, none => true
  | some as, some as' => accessors as as'
  | _, _ => false

def item : ItemNode → ItemNode → Bool
  | .decl d, .decl d' => decl d d'
  | .stmt s, .stmt s' => stmt s s'
  | .expr e, .expr e' => expr e e'
  | _, _ => false

def items : List ItemNode → List ItemNode → Bool
  | [], [] => true
  | i :: is, i' :: is' => item i i' && items is is'
  | _, _ => false

def optionalItems : Option (List ItemNode) → Option (List ItemNode) → Bool
  | none, none => true
  | some is, some is' => items is is'
  | _, _ => false

end

mutual

theorem expr_iff : (a b : ExprNode) → (expr a b = true ↔ a = b)
  | .integer _, b => by cases b <;> simp [expr]
  | .float _, b => by cases b <;> simp [expr]
  | .string _, b => by cases b <;> simp [expr]
  | .bool _, b => by cases b <;> simp [expr]
  | .nil, b => by cases b <;> simp [expr]
  | .reference _, b => by cases b <;> simp [expr]
  | .ternary x y z, b => by
    cases b <;> simp [expr, expr_iff x, expr_iff y, expr_iff z, and_assoc]
  | .infixOp x _ y, b => by cases b <;> simp [expr, expr_iff x, expr_iff y, and_assoc]
  | .prefixOp _ x, b => by cases b <;> simp [expr, expr_iff x]
  | .member x _, b => by cases b <;> simp [expr, expr_iff x]
  | .call x as c, b => by
    cases b <;> simp [expr, expr_iff x, arguments_iff as, trailing_iff c, and_assoc]
  | .closure c, b => by cases b <;> simp [expr, closure_iff c]
  | .array es, b => by cases b <;> simp [expr, elements_iff es]
  | .parenthesized x, b => by cases b <;> simp [expr, expr_iff x]

theorem optionalExpr_iff : (a b : Option ExprNode) → (optionalExpr a b = true ↔ a = b)
  | none, b => by cases b <;> simp [optionalExpr]
  | some v, b => by cases b <;> simp [optionalExpr, expr_iff v]

theorem arguments_iff :
    (a b : List (Separated (Argument ExprNode))) → (arguments a b = true ↔ a = b)
  | [], b => by cases b <;> simp [arguments]
  | _ :: _, [] => by simp [arguments]
  | ⟨⟨_, v⟩, _⟩ :: as, ⟨⟨_, _⟩, _⟩ :: _ => by simp [arguments, expr_iff v, arguments_iff as]

theorem elements_iff : (a b : List (Separated ExprNode)) → (elements a b = true ↔ a = b)
  | [], b => by cases b <;> simp [elements]
  | _ :: _, [] => by simp [elements]
  | ⟨v, _⟩ :: es, ⟨_, _⟩ :: _ => by simp [elements, expr_iff v, elements_iff es]

theorem closure_iff : (a b : Closure ItemNode) → (closure a b = true ↔ a = b)
  | ⟨_, ss⟩, ⟨_, _⟩ => by simp [closure, items_iff ss]

theorem trailing_iff : (a b : Option (Closure ItemNode)) → (trailing a b = true ↔ a = b)
  | none, b => by cases b <;> simp [trailing]
  | some c, b => by cases b <;> simp [trailing, closure_iff c]

theorem stmt_iff : (a b : StmtNode) → (stmt a b = true ↔ a = b)
  | .guard c is, b => by cases b <;> simp [stmt, expr_iff c, items_iff is]
  | .branch c is e, b => by
    cases b <;> simp [stmt, expr_iff c, items_iff is, optionalItems_iff e, and_assoc]
  | .returns v, b => by cases b <;> simp [stmt, optionalExpr_iff v]
  | .throws v, b => by cases b <;> simp [stmt, expr_iff v]
  | .defer is, b => by cases b <;> simp [stmt, items_iff is]

theorem decl_iff : (a b : DeclNode) → (decl a b = true ↔ a = b)
  | .variable _ _ _ _ i as, b => by
    cases b <;> simp [decl, optionalExpr_iff i, optionalAccessors_iff as, and_assoc]
  | .function _ _ _ _ _ is, b => by cases b <;> simp [decl, items_iff is, and_assoc]
  | .initializer _ _ _ is, b => by cases b <;> simp [decl, items_iff is, and_assoc]
  | .extension _ _ ms, b => by cases b <;> simp [decl, members_iff ms, and_assoc]
  | .struct _ _ _ ms, b => by cases b <;> simp [decl, members_iff ms, and_assoc]

theorem members_iff : (a b : List DeclNode) → (members a b = true ↔ a = b)
  | [], b => by cases b <;> simp [members]
  | d :: ds, b => by cases b <;> simp [members, decl_iff d, members_iff ds]

theorem accessors_iff : (a b : List (Accessor ItemNode)) → (accessors a b = true ↔ a = b)
  | [], b => by cases b <;> simp [accessors]
  | _ :: _, [] => by simp [accessors]
  | ⟨_, _, is⟩ :: as, ⟨_, _, _⟩ :: _ => by
    simp [accessors, items_iff is, accessors_iff as, and_assoc]

theorem optionalAccessors_iff :
    (a b : Option (List (Accessor ItemNode))) → (optionalAccessors a b = true ↔ a = b)
  | none, b => by cases b <;> simp [optionalAccessors]
  | some as, b => by cases b <;> simp [optionalAccessors, accessors_iff as]

theorem item_iff : (a b : ItemNode) → (item a b = true ↔ a = b)
  | .decl d, b => by cases b <;> simp [item, decl_iff d]
  | .stmt s, b => by cases b <;> simp [item, stmt_iff s]
  | .expr e, b => by cases b <;> simp [item, expr_iff e]

theorem items_iff : (a b : List ItemNode) → (items a b = true ↔ a = b)
  | [], b => by cases b <;> simp [items]
  | i :: is, b => by cases b <;> simp [items, item_iff i, items_iff is]

theorem optionalItems_iff : (a b : Option (List ItemNode)) → (optionalItems a b = true ↔ a = b)
  | none, b => by cases b <;> simp [optionalItems]
  | some is, b => by cases b <;> simp [optionalItems, items_iff is]

end

end NodeEquality

instance : DecidableEq ExprNode := fun a b => decidable_of_iff _ (NodeEquality.expr_iff a b)

instance : DecidableEq StmtNode := fun a b => decidable_of_iff _ (NodeEquality.stmt_iff a b)

instance : DecidableEq DeclNode := fun a b => decidable_of_iff _ (NodeEquality.decl_iff a b)

instance : DecidableEq ItemNode := fun a b => decidable_of_iff _ (NodeEquality.item_iff a b)

end SwiftSource

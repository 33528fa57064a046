import SwiftSource.Proofs.Double.Numeral
import SwiftSource.Proofs.Render.Node
import SwiftSource.Proofs.Tree.Norm

namespace SwiftSource

-- The tree behind a node. Nodes that no tree is rendered to are read in some way.

def Double.negativeInfinity : Double := ⟨0xfff0000000000000⟩

namespace ExprNode

mutual

def read : ExprNode → Expr Unit
  | .integer text => .literal (.int (Int64.ofInt (Parse.signedValue text.toList)))
  | .float text => .literal (.double (Double.ofText text))
  | .string value => .literal (.string value)
  | .bool value => .literal (.bool value)
  | .nil => .literal .nil
  | .reference name => .variable name ()
  | .ternary condition thenBranch elseBranch =>
    .conditional condition.read thenBranch.read elseBranch.read
  | .infixOp left operator right => .binary left.read operator right.read
  | .prefixOp _ _ => .literal (.double .negativeInfinity)
  | .member base name => .property base.read name
  | .call (.reference name) arguments none => .call name (readArguments arguments)
  | .call (.member base name) arguments none => .method base.read name (readArguments arguments)
  | .call (.member base _) _ (some ⟨[element], [.expr body]⟩) =>
    .loop element.element base.read body.read
  | .array elements => .array (readElements elements)
  | .parenthesized inner => inner.read
  | _ => .literal .nil

def readArguments : List (Separated (Argument ExprNode)) → List (Argument (Expr Unit))
  | [] => []
  | ⟨⟨label, value⟩, _⟩ :: rest => ⟨label, value.read⟩ :: readArguments rest

def readElements : List (Separated ExprNode) → List (Expr Unit)
  | [] => []
  | ⟨value, _⟩ :: rest => value.read :: readElements rest

end

@[simp]
theorem readArguments_eq (arguments : List (Separated (Argument ExprNode))) :
    readArguments arguments =
      (arguments.map Separated.element).map fun a => ⟨a.label, a.value.read⟩ := by
  induction arguments with
  | nil => rfl
  | cons a rest ih => rw [readArguments, ih, List.map_cons, List.map_cons]

@[simp]
theorem readElements_eq (elements : List (Separated ExprNode)) :
    readElements elements = (elements.map Separated.element).map read := by
  induction elements with
  | nil => rfl
  | cons e rest ih => rw [readElements, ih, List.map_cons, List.map_cons]

-- Parentheses are not part of the tree.
@[simp]
theorem read_groupIf (needed : Bool) (node : ExprNode) :
    (node.groupIf needed).read = node.read := by
  cases needed with
  | false => rfl
  | true => rfl

@[simp]
theorem read_asOperand (node : ExprNode) : node.asOperand.read = node.read :=
  read_groupIf _ _

@[simp]
theorem read_asBase (node : ExprNode) : node.asBase.read = node.read :=
  read_groupIf _ _

@[simp]
theorem read_asCondition (node : ExprNode) : node.asCondition.read = node.read :=
  read_groupIf _ _

@[simp]
theorem read_forEach (collection : ExprNode) (element : String) (body : ExprNode) :
    (ExprNode.forEach collection element body).read =
      .loop element collection.read body.read := rfl

end ExprNode

-- The sign and the field of an infinity leave no bit open.
theorem Double.eq_negativeInfinity {x : Double} (hkind : x.kind = .infinite)
    (hsign : x.isNegative = true) : x = .negativeInfinity := by
  obtain ⟨bits⟩ := x
  have hlt := bits.toNat_lt
  have hfields : bits.toNat / 2 ^ 52 % 2 ^ 11 = 2047 ∧ bits.toNat % 2 ^ 52 = 0 := by
    unfold kind at hkind
    by_cases hmax : (⟨bits⟩ : Double).exponentField = 2047
    · rw [if_pos hmax] at hkind
      by_cases hzero : (⟨bits⟩ : Double).fractionField = 0
      · exact ⟨hmax, hzero⟩
      · rw [if_neg hzero] at hkind
        cases hkind
    · rw [if_neg hmax] at hkind
      split at hkind <;> cases hkind
  have hnegative : 2 ^ 63 ≤ bits.toNat := by simpa [isNegative] using hsign
  have hbits : bits = 0xfff0000000000000 := by
    apply UInt64.toNat_inj.mp
    have hvalue : (0xfff0000000000000 : UInt64).toNat = 2047 * 2 ^ 52 + 2 ^ 63 := rfl
    omega
  rw [hbits]
  rfl

theorem Double.read_node (x : Double) : x.node.read = (Literal.double x).norm := by
  rcases x.node_cases with ⟨hkind, hnode⟩ | ⟨hkind, hsign, hnode⟩ | ⟨hkind, hsign, hnode⟩ |
    ⟨m, hkind, hnode⟩
  · rw [hnode, Literal.norm_of_nan hkind]
    rfl
  · rw [hnode, Literal.norm_of_infinity hkind hsign]
    rfl
  · rw [hnode, Literal.norm_of_negative_infinity hkind hsign, ExprNode.read,
      Double.eq_negativeInfinity hkind hsign]
  · rw [hnode, Literal.norm_of_finite hkind, ExprNode.read, Double.ofText_signedNumeral hkind]

theorem Literal.read_node (l : Literal) : l.node.read = l.norm := by
  cases l with
  | int value =>
      rw [Literal.node, ExprNode.read, Parse.signedValue_toString, Int64.ofInt_toInt]
      rfl
  | double x => exact x.read_node
  | string value => rfl
  | bool value => rfl
  | nil => rfl

theorem Literal.node_norm (l : Literal) : l.norm.node = l.node := by
  cases l with
  | double x =>
      rw [Literal.node]
      rcases x.node_cases with ⟨hkind, hnode⟩ | ⟨hkind, hsign, hnode⟩ | ⟨hkind, hsign, -⟩ |
        ⟨m, hkind, -⟩
      · rw [Literal.norm_of_nan hkind, hnode]
        rfl
      · rw [Literal.norm_of_infinity hkind hsign, hnode]
        rfl
      · rw [Literal.norm_of_negative_infinity hkind hsign]
        rfl
      · rw [Literal.norm_of_finite hkind]
        rfl
  | int value => rfl
  | string value => rfl
  | bool value => rfl
  | nil => rfl

namespace Expr

variable {α : Type}

-- Reading a rendered expression gives all of it that is kept.
theorem read_node (e : Expr α) : e.node.read = e.norm := by
  induction e using Expr.induction with
  | literal value => exact value.read_node
  | reference name payload => rfl
  | conditional condition thenBranch elseBranch hc ht he =>
      simp [ExprNode.read, norm, hc, ht, he]
  | loop element collection body hc hb => simp [norm, hc, hb]
  | call name arguments ih =>
      have hmap : (arguments.map fun a => (⟨a.label, a.value.node.read⟩ : Argument (Expr Unit))) =
          arguments.map fun a => ⟨a.label, a.value.norm⟩ :=
        List.map_congr_left fun a ha => by rw [ih a ha]
      simp [ExprNode.read, norm, Function.comp_def, hmap]
  | method base name arguments hb ih =>
      have hmap : (arguments.map fun a => (⟨a.label, a.value.node.read⟩ : Argument (Expr Unit))) =
          arguments.map fun a => ⟨a.label, a.value.norm⟩ :=
        List.map_congr_left fun a ha => by rw [ih a ha]
      simp [ExprNode.read, norm, Function.comp_def, hb, hmap]
  | binary left operator right hl hr => simp [ExprNode.read, norm, hl, hr]
  | property base name hb => simp [ExprNode.read, norm, hb]
  | inline name type initializer ih => simp [norm, ih]
  | array elements ih =>
      have hmap : elements.map (fun e => e.node.read) = elements.map norm :=
        List.map_congr_left fun e he => ih e he
      simp [ExprNode.read, norm, Function.comp_def, hmap]

-- Nothing that is left behind shows in the node.
theorem node_norm (e : Expr α) : e.norm.node = e.node := by
  induction e using Expr.induction with
  | literal value => exact value.node_norm
  | reference name payload => rfl
  | conditional condition thenBranch elseBranch hc ht he => simp [norm, hc, ht, he]
  | loop element collection body hc hb => simp [norm, hc, hb]
  | call name arguments ih =>
      have hmap : (arguments.map fun a => (⟨a.label, a.value.norm.node⟩ : Argument ExprNode)) =
          arguments.map fun a => ⟨a.label, a.value.node⟩ :=
        List.map_congr_left fun a ha => by rw [ih a ha]
      simp [norm, Function.comp_def, hmap]
  | method base name arguments hb ih =>
      have hmap : (arguments.map fun a => (⟨a.label, a.value.norm.node⟩ : Argument ExprNode)) =
          arguments.map fun a => ⟨a.label, a.value.node⟩ :=
        List.map_congr_left fun a ha => by rw [ih a ha]
      simp [norm, Function.comp_def, hb, hmap]
  | binary left operator right hl hr => simp [norm, hl, hr]
  | property base name hb => simp [norm, hb]
  | inline name type initializer ih => simp [norm, ih]
  | array elements ih =>
      have hmap : elements.map (fun e => e.norm.node) = elements.map node :=
        List.map_congr_left fun e he => ih e he
      simp [norm, Function.comp_def, hmap]

end Expr

end SwiftSource

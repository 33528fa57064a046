import SwiftSource.Double.Numeral
import SwiftSource.Node.Grouping
import SwiftSource.Proofs.Part.Separated

namespace SwiftSource

-- Where a node stands: by itself, beside an operator, in front of a member, or between the
-- keyword and the body of a statement.
inductive Position where
  | whole
  | operand
  | base
  | condition

-- Whether a node needs parentheses there.
def Position.groups : Position → ExprNode → Bool
  | .whole, _ => false
  | .operand, node => node.isCompound
  | .base, node => node.needsGroupingAsBase
  | .condition, node => node.needsGroupingAsCondition

-- The grammar of rendered expressions. Parentheses stand where they are needed and nowhere
-- else, a closure occurs only as the body of `forEach`, and a sign only on infinity.
inductive ExprNode.Canonical : Position → ExprNode → Prop
  | bare {p : Position} {node : ExprNode} :
      Canonical .whole node → p.groups node = false → Canonical p node
  | grouped {p : Position} {node : ExprNode} :
      Canonical .whole node → p.groups node = true → Canonical p (.parenthesized node)
  | integer (value : Int64) : Canonical .whole (.integer (toString value.toInt))
  | float {x : Double} {m : Double.Magnitude} :
      x.kind = .finite m → Canonical .whole (.float (Double.signedNumeral x.isNegative m))
  | string (value : String) : Canonical .whole (.string value)
  | bool (value : Bool) : Canonical .whole (.bool value)
  | nil : Canonical .whole .nil
  | reference (name : String) : Canonical .whole (.reference name)
  | ternary {condition thenBranch elseBranch : ExprNode} :
      Canonical .operand condition → Canonical .operand thenBranch →
      Canonical .operand elseBranch → Canonical .whole (.ternary condition thenBranch elseBranch)
  | infixOp {left : ExprNode} (operator : String) {right : ExprNode} :
      Canonical .operand left → Canonical .operand right →
      Canonical .whole (.infixOp left operator right)
  | negativeInfinity : Canonical .whole (.prefixOp "-" (.member (.reference "Double") "infinity"))
  | member {base : ExprNode} (name : String) :
      Canonical .base base → Canonical .whole (.member base name)
  | call (name : String) {arguments : List (Separated (Argument ExprNode))} :
      CommasBetween arguments → (∀ a ∈ arguments, Canonical .whole a.element.value) →
      Canonical .whole (.call (.reference name) arguments none)
  | method {base : ExprNode} (name : String) {arguments : List (Separated (Argument ExprNode))} :
      Canonical .base base → CommasBetween arguments →
      (∀ a ∈ arguments, Canonical .whole a.element.value) →
      Canonical .whole (.call (.member base name) arguments none)
  | forEach {base : ExprNode} (element : String) {body : ExprNode} :
      Canonical .base base → Canonical .whole body →
      Canonical .whole
        (.call (.member base "forEach") [] (some ⟨[⟨element, false⟩], [.expr body]⟩))
  | array {elements : List (Separated ExprNode)} :
      CommasBetween elements → (∀ e ∈ elements, Canonical .whole e.element) →
      Canonical .whole (.array elements)

inductive ItemNode.Canonical : ItemNode → Prop
  | bind (binding : Binding) (name : String) (type : Option String) {initializer : ExprNode} :
      initializer.Canonical .whole →
      Canonical (.decl (.variable .empty binding name type (some initializer) none))
  | guard {condition : ExprNode} {body : List ItemNode} :
      condition.Canonical .condition → (∀ item ∈ body, Canonical item) →
      Canonical (.stmt (.guard condition body))
  | branch {condition : ExprNode} {body : List ItemNode} {elseBody : Option (List ItemNode)} :
      condition.Canonical .condition → (∀ item ∈ body, Canonical item) →
      (∀ other ∈ elseBody, ∀ item ∈ other, Canonical item) →
      Canonical (.stmt (.branch condition body elseBody))
  | returns {value : Option ExprNode} :
      (∀ node ∈ value, node.Canonical .whole) → Canonical (.stmt (.returns value))
  | throws {value : ExprNode} : value.Canonical .whole → Canonical (.stmt (.throws value))
  | defer {body : List ItemNode} :
      (∀ item ∈ body, Canonical item) → Canonical (.stmt (.defer body))
  | expression {value : ExprNode} : value.Canonical .whole → Canonical (.expr value)

-- At most one keyword of access, whether or not `static` stands beside it.
def Modifiers.OneAccess (modifiers : Modifiers) : Prop :=
  (modifiers.keywords.filter (· ≠ "static")).length ≤ 1

instance (modifiers : Modifiers) : Decidable modifiers.OneAccess :=
  inferInstanceAs (Decidable (_ ≤ 1))

-- A clause that is present names a type.
def ClauseFilled (clause : Option (List (Separated String))) : Prop :=
  ∀ types ∈ clause, types ≠ [] ∧ CommasBetween types

-- A getter, and possibly a setter with its parameter behind it.
inductive AccessorsCanonical : List (Accessor ItemNode) → Prop
  | getter {body : List ItemNode} :
      (∀ item ∈ body, item.Canonical) → AccessorsCanonical [⟨.get, none, body⟩]
  | getterSetter {body : List ItemNode} (parameter : String) {setter : List ItemNode} :
      (∀ item ∈ body, item.Canonical) → (∀ item ∈ setter, item.Canonical) →
      AccessorsCanonical [⟨.get, none, body⟩, ⟨.set, some parameter, setter⟩]

inductive DeclNode.Canonical : DeclNode → Prop
  | property {modifiers : Modifiers} (binding : Binding) (name : String) (type : Option String)
      {value : Option ExprNode} :
      modifiers.OneAccess → (∀ node ∈ value, node.Canonical .whole) →
      Canonical (.variable modifiers binding name type value none)
  | computed {modifiers : Modifiers} (name type : String) {accessors : List (Accessor ItemNode)} :
      (∀ keyword ∈ modifiers.keywords, keyword = "static") → AccessorsCanonical accessors →
      Canonical (.variable modifiers .variable name (some type) none (some accessors))
  | function {modifiers : Modifiers} (name : String) {parameters : List (Separated Parameter)}
      (effects : Effects) (returnType : Option String) {body : List ItemNode} :
      modifiers.OneAccess → "static" ∉ modifiers.keywords → CommasBetween parameters →
      (∀ item ∈ body, item.Canonical) →
      Canonical (.function modifiers name parameters effects returnType body)
  | initializer {modifiers : Modifiers} {parameters : List (Separated Parameter)}
      {effects : Effects} {body : List ItemNode} :
      modifiers.OneAccess → "static" ∉ modifiers.keywords → CommasBetween parameters →
      "async" ∉ effects.keywords → (∀ item ∈ body, item.Canonical) →
      Canonical (.initializer modifiers parameters effects body)
  | extension (type : String) {inheritance : Option (List (Separated String))}
      {members : List DeclNode} :
      ClauseFilled inheritance → (∀ member ∈ members, Canonical member) →
      Canonical (.extension type inheritance members)
  | struct {modifiers : Modifiers} (name : String)
      {inheritance : Option (List (Separated String))} {members : List DeclNode} :
      modifiers.OneAccess → "static" ∉ modifiers.keywords → ClauseFilled inheritance →
      (∀ member ∈ members, Canonical member) →
      Canonical (.struct modifiers name inheritance members)

end SwiftSource

import SwiftSource.Layout.Printer
import SwiftSource.Node.Basic
import SwiftSource.Text.Quoted

namespace SwiftSource.Print

-- The program that prints each node. Nothing here looks at the indentation.

def comma (follows : Bool) : List Command :=
  if follows then [.write ", "] else []

def names (names : List (Separated String)) : List Command :=
  names.flatMap fun name => .write name.element :: comma name.comma

-- Each modifier is followed by a blank.
def modifiers (modifiers : Modifiers) : List Command :=
  modifiers.keywords.flatMap fun keyword => [.write keyword, .write " "]

-- Each effect is preceded by a blank.
def effects (effects : Effects) : List Command :=
  effects.keywords.flatMap fun keyword => [.write " ", .write keyword]

-- `label` in front of the name of a parameter.
def parameterLabel : Option String → List Command
  | none => []
  | some label => [.write label, .write " "]

-- ` = value`
def defaultValue : Option String → List Command
  | none => []
  | some value => [.write " = ", .write value]

-- `label name: inout Type = default`
def parameter (parameter : Separated Parameter) : List Command :=
  parameterLabel parameter.element.label ++
  [.write parameter.element.name, .write ": "] ++
  (if parameter.element.isInout then [.write "inout "] else []) ++
  [.write parameter.element.type] ++ defaultValue parameter.element.defaultValue ++
  comma parameter.comma

def parameters (parameters : List (Separated Parameter)) : List Command :=
  .write "(" :: parameters.flatMap parameter ++ [.write ")"]

-- `: Type`
def typeClause : Option String → List Command
  | none => []
  | some type => [.write ": ", .write type]

-- ` -> Type`
def returnClause : Option String → List Command
  | none => []
  | some type => [.write " -> ", .write type]

-- `: A, B`
def inheritance (types : List (Separated String)) : List Command :=
  .write ": " :: names types

def inheritanceClause : Option (List (Separated String)) → List Command
  | none => []
  | some types => inheritance types

def accessorKeyword : AccessorKind → String
  | .get => "get"
  | .set => "set"

-- `(value)` behind the keyword of an accessor.
def accessorParameter : Option String → List Command
  | none => []
  | some name => [.write "(", .write name, .write ")"]

-- `label: ` in front of an argument.
def argumentLabel : Option String → List Command
  | none => []
  | some label => [.write label, .write ": "]

-- A closure with the given statements, on one line.
def inlineBlock (parameters : List (Separated String)) (statements : List (List Command)) :
    List Command :=
  [.write (openBrace ++ " ")] ++
  (if parameters.isEmpty then [] else names parameters ++ [.write " in "]) ++
  List.intercalate [.write "; "] statements ++
  (if statements.isEmpty then [] else [.write " "]) ++ [.write closeBrace]

mutual

-- A call without arguments has no parentheses when a closure follows.
def expr : ExprNode → List Command
  | .integer text => [.write text]
  | .float text => [.write text]
  | .string value => [.write (Text.stringLiteral value)]
  | .bool value => [.write (if value then "true" else "false")]
  | .nil => [.write "nil"]
  | .reference name => [.write name]
  | .ternary condition thenBranch elseBranch =>
    expr condition ++ [.write " ? "] ++ expr thenBranch ++ [.write " : "] ++ expr elseBranch
  | .infixOp left operator right =>
    expr left ++ [.write " ", .write operator, .write " "] ++ expr right
  | .prefixOp operator operand => .write operator :: expr operand
  | .member base name => expr base ++ [.write ".", .write name]
  | .call callee arguments trailing =>
    expr callee ++
    (if arguments.isEmpty && trailing.isSome then []
      else .write "(" :: argumentList arguments ++ [.write ")"]) ++
    trailingClosure trailing
  | .closure closure => closureBody closure
  | .array elements => .write "[" :: elementList elements ++ [.write "]"]
  | .parenthesized inner => .write "(" :: expr inner ++ [.write ")"]

def argument : Separated (Argument ExprNode) → List Command
  | ⟨⟨label, value⟩, follows⟩ => argumentLabel label ++ expr value ++ comma follows

def argumentList : List (Separated (Argument ExprNode)) → List Command
  | [] => []
  | entry :: rest => argument entry ++ argumentList rest

def elementList : List (Separated ExprNode) → List Command
  | [] => []
  | ⟨value, follows⟩ :: rest => expr value ++ comma follows ++ elementList rest

def closureBody : Closure ItemNode → List Command
  | ⟨parameters, statements⟩ => inlineBlock parameters (items statements)

def trailingClosure : Option (Closure ItemNode) → List Command
  | none => []
  | some closure => .write " " :: closureBody closure

def stmt : StmtNode → List Command
  | .guard condition body =>
    .write "guard " :: expr condition ++ [.write " else ", .block (items body)]
  | .branch condition body elseBody =>
    .write "if " :: expr condition ++ [.write " ", .block (items body)] ++ elseClause elseBody
  | .returns none => [.write "return"]
  | .returns (some value) => .write "return " :: expr value
  | .throws value => .write "throw " :: expr value
  | .defer body => [.write "defer ", .block (items body)]

def elseClause : Option (List ItemNode) → List Command
  | none => []
  | some body => [.write " else ", .block (items body)]

def decl : DeclNode → List Command
  | .variable mods binding name type initializer accessorList =>
    modifiers mods ++ [.write binding.keyword, .write " ", .write name] ++ typeClause type ++
    initialValue initializer ++ accessorClause accessorList
  | .function mods name params effs returnType body =>
    modifiers mods ++ [.write "func ", .write name] ++ parameters params ++ effects effs ++
    returnClause returnType ++ [.write " ", .block (items body)]
  | .initializer mods params effs body =>
    modifiers mods ++ [.write "init"] ++ parameters params ++ effects effs ++
    [.write " ", .block (items body)]
  | .extension type types memberList =>
    [.write "extension ", .write type] ++ inheritanceClause types ++
    [.write " ", .block (members memberList)]
  | .struct mods name types memberList =>
    modifiers mods ++ [.write "struct ", .write name] ++ inheritanceClause types ++
    [.write " ", .block (members memberList)]

-- ` = value`
def initialValue : Option ExprNode → List Command
  | none => []
  | some value => .write " = " :: expr value

def accessor : Accessor ItemNode → List Command
  | ⟨kind, name, body⟩ =>
    .write (accessorKeyword kind) :: accessorParameter name ++ [.write " ", .block (items body)]

def accessors : List (Accessor ItemNode) → List (List Command)
  | [] => []
  | entry :: rest => accessor entry :: accessors rest

def accessorClause : Option (List (Accessor ItemNode)) → List Command
  | none => []
  | some entries => [.write " ", .block (accessors entries)]

def members : List DeclNode → List (List Command)
  | [] => []
  | member :: rest => decl member :: members rest

def item : ItemNode → List Command
  | .decl node => decl node
  | .stmt node => stmt node
  | .expr node => expr node

def items : List ItemNode → List (List Command)
  | [] => []
  | entry :: rest => item entry :: items rest

end

-- Items without braces, one per line.
def itemLines (nodes : List ItemNode) : List Command :=
  List.intercalate [.newline] (items nodes)

end SwiftSource.Print

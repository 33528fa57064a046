import SwiftSource.Proofs.Parse.Clause
import SwiftSource.Proofs.Parse.Expr

namespace SwiftSource.Parse

-- A recursive-descent parser of items on lines without margins. It ends like that of
-- expressions.

-- The word at the front of a text.
def leading (cs : List Char) : String :=
  String.ofList (cs.takeWhile isWordChar)

-- Declarations out of the items of a block.
def members? : List ItemNode → Option (List DeclNode)
  | [] => some []
  | .decl node :: rest => (members? rest).map (node :: ·)
  | _ :: _ => none

def returnStatement (cs : List Char) : Option (StmtNode × List Char) :=
  match expect [' '] cs with
  | none => return (.returns none, cs)
  | some rest => do
    let (value, rest) ← expr rest
    return (.returns (some value), rest)

def throwStatement (cs : List Char) : Option (StmtNode × List Char) := do
  let rest ← expect [' '] cs
  let (value, rest) ← expr rest
  return (.throws value, rest)

mutual

-- Each item is on a new line, up to the brace that ends the block.
def items (cs : List Char) : Option (List ItemNode × List Char) :=
  match expect ['\n', '}'] cs with
  | some rest => return ([], rest)
  | none => do
    let rest ← expect ['\n'] cs
    after cs rest fun _ => do
      let (first, rest) ← item rest
      after cs rest fun _ => do
        let (others, rest) ← items rest
        return (first :: others, rest)
termination_by (cs.length, 0)

def block (cs : List Char) : Option (List ItemNode × List Char) := do
  let rest ← expect ['{'] cs
  after cs rest fun _ => items rest
termination_by (cs.length, 0)

def item (cs : List Char) : Option (ItemNode × List Char) :=
  if statementWords.contains (leading cs) then do
    let (keyword, rest) ← word cs
    after cs rest fun _ => do
      let (node, rest) ← statement keyword rest
      return (.stmt node, rest)
  else if declarationWords.contains (leading cs) then do
    let (keyword, rest) ← word (modifiers cs).2
    after cs rest fun _ => do
      let (node, rest) ← declaration (modifiers cs).1 keyword rest
      return (.decl node, rest)
  else do
    let (node, rest) ← expr cs
    return (.expr node, rest)
termination_by (cs.length, 0)

-- What stands behind the keyword of a statement.
def statement (keyword : String) (cs : List Char) : Option (StmtNode × List Char) :=
  if keyword = "guard" then guardStatement cs
  else if keyword = "if" then branchStatement cs
  else if keyword = "return" then returnStatement cs
  else if keyword = "throw" then throwStatement cs
  else deferStatement cs
termination_by (cs.length, 1)

def guardStatement (cs : List Char) : Option (StmtNode × List Char) := do
  let rest ← expect [' '] cs
  let (condition, rest) ← expr rest
  let rest ← expect [' ', 'e', 'l', 's', 'e', ' '] rest
  after cs rest fun _ => do
    let (body, rest) ← block rest
    return (.guard condition body, rest)
termination_by (cs.length, 0)

def branchStatement (cs : List Char) : Option (StmtNode × List Char) := do
  let rest ← expect [' '] cs
  let (condition, rest) ← expr rest
  let rest ← expect [' '] rest
  after cs rest fun _ => do
    let (body, rest) ← block rest
    match expect [' ', 'e', 'l', 's', 'e', ' '] rest with
    | none => return (.branch condition body none, rest)
    | some rest => after cs rest fun _ => do
      let (other, rest) ← block rest
      return (.branch condition body (some other), rest)
termination_by (cs.length, 0)

def deferStatement (cs : List Char) : Option (StmtNode × List Char) := do
  let rest ← expect [' '] cs
  after cs rest fun _ => do
    let (body, rest) ← block rest
    return (.defer body, rest)
termination_by (cs.length, 0)

-- What stands behind the modifiers and the keyword of a declaration.
def declaration (mods : Modifiers) (keyword : String) (cs : List Char) :
    Option (DeclNode × List Char) :=
  if keyword = "let" then binding mods .constant cs
  else if keyword = "var" then binding mods .variable cs
  else if keyword = "func" then function mods cs
  else if keyword = "init" then initializer mods cs
  else if keyword = "extension" then extension cs
  else struct mods cs
termination_by (cs.length, 1)

def function (mods : Modifiers) (cs : List Char) : Option (DeclNode × List Char) := do
  let rest ← expect [' '] cs
  let (name, rest) ← word rest
  let ((entries, effs), rest) ← signature rest
  let (type, rest) ← marked [' ', '-', '>', ' '] rest
  let rest ← expect [' '] rest
  after cs rest fun _ => do
    let (body, rest) ← block rest
    return (.function mods name entries effs type body, rest)
termination_by (cs.length, 0)

def initializer (mods : Modifiers) (cs : List Char) : Option (DeclNode × List Char) := do
  let ((entries, effs), rest) ← signature cs
  let rest ← expect [' '] rest
  after cs rest fun _ => do
    let (body, rest) ← block rest
    return (.initializer mods entries effs body, rest)
termination_by (cs.length, 0)

def extension (cs : List Char) : Option (DeclNode × List Char) := do
  let rest ← expect [' '] cs
  let (type, rest) ← typeText rest
  let (types, rest) ← inheritance rest
  after cs rest fun _ => do
    let (body, rest) ← block rest
    let memberList ← members? body
    return (.extension type types memberList, rest)
termination_by (cs.length, 0)

def struct (mods : Modifiers) (cs : List Char) : Option (DeclNode × List Char) := do
  let rest ← expect [' '] cs
  let (name, rest) ← word rest
  let (types, rest) ← inheritance rest
  after cs rest fun _ => do
    let (body, rest) ← block rest
    let memberList ← members? body
    return (.struct mods name types memberList, rest)
termination_by (cs.length, 0)

def binding (mods : Modifiers) (kind : Binding) (cs : List Char) :
    Option (DeclNode × List Char) := do
  let rest ← expect [' '] cs
  let (name, rest) ← word rest
  let (type, rest) ← marked [':', ' '] rest
  match expect [' ', '=', ' '] rest with
  | some rest => do
    let (value, rest) ← expr rest
    return (.variable mods kind name type (some value) none, rest)
  | none =>
    match expect [' '] rest with
    | none => return (.variable mods kind name type none none, rest)
    | some rest => after cs rest fun _ => do
      let (entries, rest) ← accessors rest
      return (.variable mods kind name type none (some entries), rest)
termination_by (cs.length, 0)

def accessors (cs : List Char) : Option (List (Accessor ItemNode) × List Char) := do
  let rest ← expect ['{', '\n', 'g', 'e', 't', ' '] cs
  after cs rest fun _ => do
    let (getter, rest) ← block rest
    match expect ['\n', 's', 'e', 't', '('] rest with
    | none => do
      let rest ← expect ['\n', '}'] rest
      return ([⟨.get, none, getter⟩], rest)
    | some rest => do
      let (name, rest) ← word rest
      let rest ← expect [')', ' '] rest
      after cs rest fun _ => do
        let (setter, rest) ← block rest
        let rest ← expect ['\n', '}'] rest
        return ([⟨.get, none, getter⟩, ⟨.set, some name, setter⟩], rest)
termination_by (cs.length, 0)

end

end SwiftSource.Parse

import SwiftSource.Proofs.Text.Stmt

namespace SwiftSource

open Command (Spells Prints PrintsBelow spells_nil spells_write printsBelow_nil)

variable {α : Type}

-- The lines of a declaration, read off the tree.

def Access.tokens : Access → List Token
  | .everyone => [.word "public "]
  | .internal => []
  | .file => [.word "fileprivate "]
  | .scope => [.word "private "]

-- A word that is written only where it applies.
def Token.flag (word : String) (applies : Bool) : List Token :=
  if applies then [.word word] else []

def Parameter.tokens (p : Parameter) : List Token :=
  (p.label.map fun label => [.word label, .word " "]).getD [] ++ [.word p.name, .word ": "] ++
    Token.flag "inout " p.isInout ++ [.word p.type] ++ Token.marked " = " p.defaultValue

def Token.parameters (parameters : List Parameter) : List Token :=
  [.word "("] ++ Token.commaSeparated (parameters.map Parameter.tokens) ++ [.word ")"]

def Token.effects (isAsync canThrow : Bool) : List Token :=
  Token.flag " async" isAsync ++ Token.flag " throws" canThrow

def Token.conformances (types : List String) : List Token :=
  if types.isEmpty then []
  else [.word ": "] ++ Token.commaSeparated (types.map fun type => [.word type])

def FunctionDecl.header (d : FunctionDecl α) : List Token :=
  d.access.tokens ++ [.word "func ", .word d.name] ++ Token.parameters d.parameters ++
    Token.effects d.isAsync d.canThrow ++ Token.marked " -> " d.returnType

def PropertyDecl.header (d : PropertyDecl α) : List Token :=
  d.access.tokens ++ Token.flag "static " d.isStatic ++
    [.word d.binding.keyword, .word " ", .word d.name] ++ Token.marked ": " d.type

def PropertyDecl.tokens (d : PropertyDecl α) : List Token :=
  d.header ++ (d.initializer.map fun value => [.word " = "] ++ value.tokens).getD []

def ComputedDecl.header (d : ComputedDecl α) : List Token :=
  Token.flag "static " d.isStatic ++ [.word "var ", .word d.name, .word ": ", .word d.type]

def InitializerDecl.header (d : InitializerDecl α) : List Token :=
  d.access.tokens ++ [.word "init"] ++ Token.parameters d.parameters ++
    Token.effects false d.canThrow

def ExtensionDecl.header {δ : Type} (d : ExtensionDecl δ) : List Token :=
  [.word "extension ", .word d.type] ++ Token.conformances d.conformances

def StructDecl.header {δ : Type} (d : StructDecl δ) : List Token :=
  d.access.tokens ++ [.word "struct ", .word d.name] ++ Token.conformances d.conformances

def Setter.lines (setter : Setter α) : List Line :=
  Line.block [.word "set(", .word setter.parameter, .word ")"] (setter.body.flatMap Stmt.lines)

def ComputedDecl.accessorLines (d : ComputedDecl α) : List Line :=
  Line.block [.word "get"] (d.getter.flatMap Stmt.lines) ++ d.setter.toList.flatMap Setter.lines

namespace Decl

mutual

def lines : Decl α → List Line
  | .function d => Line.block d.header (d.body.flatMap Stmt.lines)
  | .property d => [⟨0, d.tokens⟩]
  | .computed d => Line.block d.header d.accessorLines
  | .extension ⟨type, conformances, members⟩ =>
    Line.block (ExtensionDecl.header ⟨type, conformances, members⟩) (linesList members)
  | .struct ⟨access, name, conformances, members⟩ =>
    Line.block (StructDecl.header ⟨access, name, conformances, members⟩) (linesList members)
  | .initializer d => Line.block d.header (d.body.flatMap Stmt.lines)

def linesList : List (Decl α) → List Line
  | [] => []
  | decl :: rest => decl.lines ++ linesList rest

end

@[simp]
theorem linesList_eq (members : List (Decl α)) : linesList members = members.flatMap lines := by
  induction members with
  | nil => rfl
  | cons d rest ih => rw [linesList, ih, List.flatMap_cons]

end Decl

-- Printing the node of a declaration prints these lines.

theorem spells_flag (word : String) (applies : Bool) :
    Spells (if applies then [.write word] else []) (Token.flag word applies) := by
  cases applies with
  | true => exact spells_write word
  | false => exact spells_nil

theorem spells_modifiers (modifiers : Modifiers) :
    Spells (Print.modifiers modifiers)
      (modifiers.keywords.flatMap fun keyword => [.word keyword, .word " "]) :=
  Spells.flatMap fun keyword _ => .cons keyword (spells_write " ")

theorem spells_access (access : Access) :
    Spells (Print.modifiers access.modifiers) access.tokens := by
  refine (spells_modifiers access.modifiers).of_join ?_
  cases access <;> decide

theorem spells_static (isStatic : Bool) :
    Spells (Print.modifiers (Modifiers.ofStatic isStatic)) (Token.flag "static " isStatic) := by
  refine (spells_modifiers (Modifiers.ofStatic isStatic)).of_join ?_
  cases isStatic <;> decide

theorem spells_access_static (access : Access) (isStatic : Bool) :
    Spells (Print.modifiers (access.modifiers.union (Modifiers.ofStatic isStatic)))
      (access.tokens ++ Token.flag "static " isStatic) := by
  refine (spells_modifiers (access.modifiers.union (Modifiers.ofStatic isStatic))).of_join ?_
  cases access <;> cases isStatic <;> decide

theorem spells_effects (isAsync canThrow : Bool) :
    Spells (Print.effects (Effects.of isAsync canThrow)) (Token.effects isAsync canThrow) := by
  have hwords : Spells (Print.effects (Effects.of isAsync canThrow))
      ((Effects.of isAsync canThrow).keywords.flatMap fun keyword =>
        [.word " ", .word keyword]) :=
    Spells.flatMap fun keyword _ => .cons " " (spells_write keyword)
  refine hwords.of_join ?_
  cases isAsync <;> cases canThrow <;> decide

theorem spells_parameterLabel (label : Option String) :
    Spells (Print.parameterLabel label)
      ((label.map fun label => [.word label, .word " "]).getD []) := by
  cases label with
  | none => exact spells_nil
  | some label => exact .cons label (spells_write " ")

theorem spells_returnClause (type : Option String) :
    Spells (Print.returnClause type) (Token.marked " -> " type) :=
  spells_marked rfl (fun _ => rfl) type

theorem spells_defaultValue (value : Option String) :
    Spells (Print.defaultValue value) (Token.marked " = " value) :=
  spells_marked rfl (fun _ => rfl) value

-- All of a parameter but its comma.
theorem spells_parameter (p : Parameter) :
    Spells (Print.parameterLabel p.label ++ [.write p.name, .write ": "] ++
      (if p.isInout then [.write "inout "] else []) ++ [.write p.type] ++
      Print.defaultValue p.defaultValue) p.tokens :=
  ((((spells_parameterLabel p.label).append (.cons p.name (spells_write ": "))).append
    (spells_flag "inout " p.isInout)).append (spells_write p.type)).append
      (spells_defaultValue p.defaultValue)

theorem spells_parameters (parameters : List Parameter) :
    Spells (Print.parameters (separate parameters)) (Token.parameters parameters) :=
  ((spells_write "(").append (Spells.separate fun p _ => spells_parameter p)).append
    (spells_write ")")

theorem spells_inheritanceClause (types : List String) :
    Spells (Print.inheritanceClause (inheritanceClause? types)) (Token.conformances types) := by
  cases types with
  | nil => exact spells_nil
  | cons type types =>
      have hlist : Spells ((separate (type :: types)).flatMap fun entry =>
            [.write entry.element] ++ Print.comma entry.comma)
          (Token.commaSeparated ((type :: types).map fun type => [.word type])) :=
        Spells.separate fun type _ => spells_write type
      exact .cons ": " hlist

theorem spells_initialValue (value : Option (Expr α)) :
    Spells (Print.initialValue (value.map Expr.node))
      ((value.map fun value => [.word " = "] ++ value.tokens).getD []) := by
  cases value with
  | none => exact spells_nil
  | some value => exact .cons " = " value.spells_node

namespace Command

variable {program : List Command} {header : List Token} {items : List (List Command)}
  {lines : List Line}

-- A header, a blank, and a block.
theorem Spells.braced (h : Spells program header) (hitems : PrintsBelow items lines) :
    Prints (program ++ [.write " ", .block items]) (Line.block header lines) := by
  have hall := (h.append (spells_write " ")).block hitems header (by simp)
  simpa using hall

end Command

theorem ComputedDecl.printsBelow_accessors (d : ComputedDecl α) :
    PrintsBelow (Print.accessors d.accessors) d.accessorLines := by
  have hget : Prints (Print.accessor ⟨.get, none, d.getter.map Stmt.node⟩)
      (Line.block [.word "get"] (d.getter.flatMap Stmt.lines)) :=
    (spells_write "get").braced (Stmt.printsBelow_nodes d.getter)
  refine hget.below ?_
  cases d.setter with
  | none => exact printsBelow_nil
  | some setter =>
      have hname : Spells [.write "set", .write "(", .write setter.parameter, .write ")"]
          [.word "set(", .word setter.parameter, .word ")"] :=
        (Spells.cons "set" (.cons "(" (.cons setter.parameter (spells_write ")")))).of_join
          (by simp [← String.append_assoc])
      have hset := hname.braced (Stmt.printsBelow_nodes setter.body)
      exact hset.below printsBelow_nil

namespace Decl

theorem printsBelow_members {members : List (Decl α)}
    (h : ∀ m ∈ members, Prints (Print.decl m.node) m.lines) :
    PrintsBelow (Print.members (members.map node)) (members.flatMap lines) := by
  induction members with
  | nil => exact printsBelow_nil
  | cons m rest ih =>
      obtain ⟨hm, hrest⟩ := List.forall_mem_cons.mp h
      exact hm.below (ih hrest)

theorem prints_node (d : Decl α) : Prints (Print.decl d.node) d.lines := by
  induction d using Decl.induction with
  | function d =>
      have hheader := ((((spells_access d.access).append
        (.cons "func " (spells_write d.name))).append (spells_parameters d.parameters)).append
          (spells_effects d.isAsync d.canThrow)).append
            (spells_returnClause d.returnType)
      rw [node_function]
      exact hheader.braced (Stmt.printsBelow_nodes d.body)
  | property d =>
      have hline := (((spells_access_static d.access d.isStatic).append
        (.cons d.binding.keyword (.cons " " (spells_write d.name)))).append
          (spells_typeClause d.type)).append (spells_initialValue d.initializer)
      rw [node_property]
      simpa [lines, PropertyDecl.tokens, PropertyDecl.header, Print.decl, Print.accessorClause]
        using hline.prints
  | computed d =>
      have hheader := ((spells_static d.isStatic).append
        (.cons "var" (.cons " " (spells_write d.name)))).append (spells_typeClause (some d.type))
      have hspells := hheader.of_join (t := d.header)
        (by simp [ComputedDecl.header, Token.marked, ← String.append_assoc])
      rw [node_computed]
      simpa [lines, Print.decl, Print.initialValue, Print.accessorClause, Binding.keyword]
        using hspells.braced d.printsBelow_accessors
  | extension d ih =>
      have hheader := (Spells.cons "extension " (spells_write d.type)).append
        (spells_inheritanceClause d.conformances)
      rw [node_extension, lines, linesList_eq]
      exact hheader.braced (printsBelow_members ih)
  | struct d ih =>
      have hheader := ((spells_access d.access).append
        (.cons "struct " (spells_write d.name))).append (spells_inheritanceClause d.conformances)
      rw [node_struct, lines, linesList_eq]
      exact hheader.braced (printsBelow_members ih)
  | initializer d =>
      have hheader := (((spells_access d.access).append (spells_write "init")).append
        (spells_parameters d.parameters)).append (spells_effects false d.canThrow)
      rw [node_initializer]
      exact hheader.braced (Stmt.printsBelow_nodes d.body)

end Decl

end SwiftSource

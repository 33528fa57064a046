import Mathlib.Data.List.Basic
import SwiftSource.Assembly.Draft

namespace SwiftSource

variable {α : Type}

namespace Draft

-- The parts of a draft that steps write to.
inductive Slot where
  | access
  | parameters
  | isAsync
  | canThrow
  | returnType
  | body
  | isStatic
  | initializer
  | type
  | setter
  | conformances
  | members
  | label
  | isInout
  | defaultValue
deriving DecidableEq

-- What one step brings along for its slot.
abbrev Slot.Value (α : Type) : Slot → Type
  | .access => Access
  | .parameters => Parameter
  | .isAsync => Unit
  | .canThrow => Unit
  | .returnType => String
  | .body => List (Stmt α)
  | .isStatic => Unit
  | .initializer => Expr α
  | .type => Unit
  | .setter => Setter α
  | .conformances => String
  | .members => Decl α
  | .label => String
  | .isInout => Unit
  | .defaultValue => String

namespace Step

def slot : Step α → Slot
  | .access _ => .access
  | .parameter _ => .parameters
  | .async => .isAsync
  | .throws => .canThrow
  | .returnType _ => .returnType
  | .body _ => .body
  | .static => .isStatic
  | .initializer _ => .initializer
  | .inferred => .type
  | .setter _ _ => .setter
  | .conform _ => .conformances
  | .member _ => .members
  | .label _ => .label
  | .inout => .isInout
  | .default _ => .defaultValue

def value : (step : Step α) → step.slot.Value α
  | .access level => level
  | .parameter p => p
  | .async => ()
  | .throws => ()
  | .returnType type => type
  | .body stmts => stmts
  | .static => ()
  | .initializer e => e
  | .inferred => ()
  | .setter name stmts => ⟨name, stmts⟩
  | .conform name => name
  | .member d => d
  | .label name => name
  | .inout => ()
  | .default text => text

def value? (slot : Slot) (step : Step α) : Option (slot.Value α) :=
  if h : step.slot = slot then some (h ▸ step.value) else none

end Step

-- All that a run writes to a slot, in order.
def written (slot : Slot) (steps : List (Step α)) : List (slot.Value α) :=
  steps.filterMap (Step.value? slot)

def latest (slot : Slot) (steps : List (Step α)) : Option (slot.Value α) :=
  (written slot steps).getLast?

def isWritten (slot : Slot) (steps : List (Step α)) : Bool :=
  steps.any fun step => step.slot = slot

@[simp]
theorem written_nil (slot : Slot) : written slot ([] : List (Step α)) = [] := rfl

theorem written_cons (slot : Slot) (step : Step α) (steps : List (Step α)) :
    written slot (step :: steps) = (step.value? slot).toList ++ written slot steps := by
  rw [written, List.filterMap_cons]
  cases step.value? slot with
  | none => rfl
  | some value => rfl

@[simp]
theorem latest_nil (slot : Slot) : latest slot ([] : List (Step α)) = none := rfl

theorem latest_cons (slot : Slot) (step : Step α) (steps : List (Step α)) :
    latest slot (step :: steps) = (latest slot steps).or (step.value? slot) := by
  rw [latest, written_cons, List.getLast?_append, latest]
  cases step.value? slot with
  | none => rfl
  | some value => rfl

@[simp]
theorem isWritten_nil (slot : Slot) : isWritten slot ([] : List (Step α)) = false := rfl

theorem isWritten_cons (slot : Slot) (step : Step α) (steps : List (Step α)) :
    isWritten slot (step :: steps) = (decide (step.slot = slot) || isWritten slot steps) := rfl

end Draft

open Draft

-- What each kind of draft is after a run. A flag is raised for good, a part that holds one
-- value holds the latest, and a list grows at its end.

def FunctionDecl.after (d : FunctionDecl α) (steps : List (Step α)) : FunctionDecl α where
  access := (latest .access steps).getD d.access
  name := d.name
  parameters := d.parameters ++ written .parameters steps
  isAsync := d.isAsync || isWritten .isAsync steps
  canThrow := d.canThrow || isWritten .canThrow steps
  returnType := (latest .returnType steps).or d.returnType
  body := (latest .body steps).getD d.body

-- The type can only be dropped.
def PropertyDecl.after (d : PropertyDecl α) (steps : List (Step α)) : PropertyDecl α where
  access := (latest .access steps).getD d.access
  name := d.name
  type := if isWritten .type steps then none else d.type
  isStatic := d.isStatic || isWritten .isStatic steps
  binding := d.binding
  initializer := (latest .initializer steps).or d.initializer

def ComputedDecl.after (d : ComputedDecl α) (steps : List (Step α)) : ComputedDecl α where
  name := d.name
  type := d.type
  isStatic := d.isStatic || isWritten .isStatic steps
  getter := d.getter
  setter := (latest .setter steps).or d.setter

def StructDecl.after (d : StructDecl (Decl α)) (steps : List (Step α)) : StructDecl (Decl α) where
  access := (latest .access steps).getD d.access
  name := d.name
  conformances := d.conformances ++ written .conformances steps
  members := d.members ++ written .members steps

def ExtensionDecl.after (d : ExtensionDecl (Decl α)) (steps : List (Step α)) :
    ExtensionDecl (Decl α) where
  type := d.type
  conformances := d.conformances ++ written .conformances steps
  members := d.members ++ written .members steps

def InitializerDecl.after (d : InitializerDecl α) (steps : List (Step α)) :
    InitializerDecl α where
  access := (latest .access steps).getD d.access
  parameters := d.parameters ++ written .parameters steps
  canThrow := d.canThrow || isWritten .canThrow steps
  body := d.body

def Parameter.after (p : Parameter) (steps : List (Step α)) : Parameter where
  label := (latest .label steps).or p.label
  name := p.name
  type := p.type
  isInout := p.isInout || isWritten .isInout steps
  defaultValue := (latest .defaultValue steps).or p.defaultValue

section Step

variable (step : Step α) (steps : List (Step α))

attribute [local simp] latest_cons written_cons isWritten_cons Step.value? Step.slot Step.value

-- A step changes its own slot and no other, and changes nothing where there is no such slot.

theorem FunctionDecl.after_cons (d : FunctionDecl α) :
    d.after (step :: steps) = ((d.add? step).getD d).after steps := by
  cases step <;> simp [after, add?]

theorem PropertyDecl.after_cons (d : PropertyDecl α) :
    d.after (step :: steps) = ((d.add? step).getD d).after steps := by
  cases step <;> simp [after, add?]

theorem ComputedDecl.after_cons (d : ComputedDecl α) :
    d.after (step :: steps) = ((d.add? step).getD d).after steps := by
  cases step <;> simp [after, add?]

theorem StructDecl.after_cons (d : StructDecl (Decl α)) :
    d.after (step :: steps) = ((d.add? step).getD d).after steps := by
  cases step <;> simp [after, add?]

theorem ExtensionDecl.after_cons (d : ExtensionDecl (Decl α)) :
    d.after (step :: steps) = ((d.add? step).getD d).after steps := by
  cases step <;> simp [after, add?]

theorem InitializerDecl.after_cons (d : InitializerDecl α) :
    d.after (step :: steps) = ((d.add? step).getD d).after steps := by
  cases step <;> simp [after, add?]

theorem Parameter.after_cons (p : Parameter) :
    p.after (step :: steps) = ((p.add? step).getD p).after steps := by
  cases step <;> simp [after, add?]

end Step

namespace Draft

def after (draft : Draft α) (steps : List (Step α)) : Draft α :=
  match draft with
  | .decl (.function d) => .decl (.function (d.after steps))
  | .decl (.property d) => .decl (.property (d.after steps))
  | .decl (.computed d) => .decl (.computed (d.after steps))
  | .decl (.struct d) => .decl (.struct (d.after steps))
  | .decl (.extension d) => .decl (.extension (d.after steps))
  | .decl (.initializer d) => .decl (.initializer (d.after steps))
  | .parameter p => .parameter (p.after steps)

theorem after_nil (draft : Draft α) : draft.after [] = draft := by
  cases draft with
  | parameter p => simp [after, Parameter.after]
  | decl d =>
      cases d with
      | function d => simp [after, FunctionDecl.after]
      | property d => simp [after, PropertyDecl.after]
      | computed d => simp [after, ComputedDecl.after]
      | struct d => simp [after, StructDecl.after]
      | extension d => simp [after, ExtensionDecl.after]
      | initializer d => simp [after, InitializerDecl.after]

-- What a draft holds is what is added to.
theorem add_decl {ρ : Type} (holding : ρ → Decl α) {d : ρ} {next : Option ρ} {step : Step α}
    (h : (Draft.decl (holding d)).add? step = next.map (.decl ∘ holding)) :
    (Draft.decl (holding d)).add step = .decl (holding (next.getD d)) := by
  rw [add, h]
  exact Option.getD_map (Draft.decl ∘ holding) d next

theorem after_cons (draft : Draft α) (step : Step α) (steps : List (Step α)) :
    draft.after (step :: steps) = (draft.add step).after steps := by
  cases draft with
  | parameter p => rw [after, p.after_cons, add, add?, Option.getD_map, after]
  | decl d =>
      cases d with
      | function d => rw [after, d.after_cons, add_decl Decl.function rfl, after]
      | property d => rw [after, d.after_cons, add_decl Decl.property rfl, after]
      | computed d => rw [after, d.after_cons, add_decl Decl.computed rfl, after]
      | struct d => rw [after, d.after_cons, add_decl Decl.struct rfl, after]
      | extension d => rw [after, d.after_cons, add_decl Decl.extension rfl, after]
      | initializer d => rw [after, d.after_cons, add_decl Decl.initializer rfl, after]

-- A run comes to what its steps write to each slot.
theorem build_eq_after (draft : Draft α) (steps : List (Step α)) :
    draft.build steps = draft.after steps := by
  induction steps generalizing draft with
  | nil => rw [after_nil, build, List.foldl_nil]
  | cons step steps ih => rw [after_cons, ← ih, build, List.foldl_cons, build]

end Draft

end SwiftSource

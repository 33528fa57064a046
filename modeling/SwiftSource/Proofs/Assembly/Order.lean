import SwiftSource.Proofs.Assembly.Fields
import SwiftSource.Proofs.Validation
import SwiftSource.Render.Source

namespace SwiftSource

variable {α : Type}

namespace Draft

variable {xs ys : List (Step α)}

-- Two runs with the same steps for each slot, in the same order. How steps for different slots
-- are mixed is left open.
def SameBySlot (xs ys : List (Step α)) : Prop :=
  ∀ slot : Slot,
    (xs.filter fun step => step.slot = slot) = ys.filter fun step => step.slot = slot

-- Only the steps for a slot are looked at.

theorem written_filter (slot : Slot) (steps : List (Step α)) :
    written slot (steps.filter fun step => step.slot = slot) = written slot steps := by
  rw [written, List.filterMap_filter, written]
  refine List.filterMap_congr fun step _ => ?_
  by_cases h : step.slot = slot
  · simp [h]
  · simp [h, Step.value?]

theorem isWritten_filter (slot : Slot) (steps : List (Step α)) :
    isWritten slot (steps.filter fun step => step.slot = slot) = isWritten slot steps := by
  rw [isWritten, List.any_filter, isWritten]
  simp

theorem SameBySlot.written_eq (h : SameBySlot xs ys) (slot : Slot) :
    written slot xs = written slot ys := by
  rw [← written_filter, h slot, written_filter]

theorem SameBySlot.latest_eq (h : SameBySlot xs ys) (slot : Slot) :
    latest slot xs = latest slot ys := by
  rw [latest, h.written_eq, latest]

theorem SameBySlot.isWritten_eq (h : SameBySlot xs ys) (slot : Slot) :
    isWritten slot xs = isWritten slot ys := by
  rw [← isWritten_filter, h slot, isWritten_filter]

theorem SameBySlot.build_eq (h : SameBySlot xs ys) (draft : Draft α) :
    draft.build xs = draft.build ys := by
  have hlatest := h.latest_eq
  have hwritten := h.written_eq
  have hflag := h.isWritten_eq
  rw [build_eq_after, build_eq_after]
  cases draft with
  | parameter p => simp only [after, Parameter.after, hlatest, hflag]
  | decl d =>
      cases d with
      | function d => simp only [after, FunctionDecl.after, hlatest, hwritten, hflag]
      | property d => simp only [after, PropertyDecl.after, hlatest, hflag]
      | computed d => simp only [after, ComputedDecl.after, hlatest, hflag]
      | struct d => simp only [after, StructDecl.after, hlatest, hwritten]
      | extension d => simp only [after, ExtensionDecl.after, hwritten]
      | initializer d => simp only [after, InitializerDecl.after, hlatest, hwritten, hflag]

theorem isWritten_type_iff {steps : List (Step α)} :
    isWritten .type steps = true ↔ .inferred ∈ steps := by
  rw [isWritten, List.any_eq_true]
  constructor
  · rintro ⟨step, hmem, hslot⟩
    cases step with
    | inferred => exact hmem
    | _ => simp [Step.slot] at hslot
  · intro hmem
    exact ⟨.inferred, hmem, rfl⟩

theorem latest_initializer_eq_none_iff {steps : List (Step α)} :
    latest .initializer steps = none ↔ ∀ value, .initializer value ∉ steps := by
  rw [latest, List.getLast?_eq_none_iff, written, List.filterMap_eq_nil_iff]
  constructor
  · intro h value hmem
    have hnone := h _ hmem
    simp [Step.value?, Step.slot] at hnone
  · intro h step hmem
    cases step with
    | initializer value => exact absurd hmem (h value)
    | _ => rfl

end Draft

open Draft

theorem Decl.validate_property (d : PropertyDecl α) :
    (Decl.property d).validate =
      if d.isUntyped then .error (.untypedProperty d.name) else .ok () := by
  rw [validate, problems_property]
  cases d.isUntyped with
  | true => rfl
  | false => rfl

-- Whether a property ends up untyped does not depend on the order of its steps.
theorem PropertyDecl.isUntyped_after_iff {d : PropertyDecl α} (htype : d.type.isSome = true)
    (hinitializer : d.initializer = none) (steps : List (Step α)) :
    (d.after steps).isUntyped = true ↔
      .inferred ∈ steps ∧ ∀ value, .initializer value ∉ steps := by
  have htype : (d.after steps).type = none ↔ .inferred ∈ steps := by
    rw [← isWritten_type_iff, after]
    cases isWritten .type steps with
    | true => simp
    | false => simpa using Option.isSome_iff_ne_none.mp htype
  have hvalue : (d.after steps).initializer = none ↔ ∀ value, .initializer value ∉ steps := by
    rw [← latest_initializer_eq_none_iff, after, hinitializer, Option.or_none]
  rw [isUntyped, Bool.and_eq_true, Option.isNone_iff_eq_none, Option.isNone_iff_eq_none, htype,
    hvalue]

-- What a run builds, slot by slot. Nothing depends on the order of steps for different slots.
theorem drafts_built_slot_by_slot (steps : List (Step α)) :
    (∀ name, (Draft.function name).build steps = .decl (.function {
      access := (latest .access steps).getD .internal
      name
      parameters := written .parameters steps
      isAsync := isWritten .isAsync steps
      canThrow := isWritten .canThrow steps
      returnType := latest .returnType steps
      body := (latest .body steps).getD [] })) ∧
    (∀ binding name type, (Draft.property binding name type).build steps = .decl (.property {
      access := (latest .access steps).getD .internal
      name
      type := if isWritten .type steps then none else some type
      isStatic := isWritten .isStatic steps
      binding
      initializer := latest .initializer steps })) ∧
    (∀ name type getter, (Draft.computed name type getter).build steps = .decl (.computed {
      name
      type
      isStatic := isWritten .isStatic steps
      getter
      setter := latest .setter steps })) ∧
    (∀ name, (Draft.struct name).build steps = .decl (.struct {
      access := (latest .access steps).getD .internal
      name
      conformances := written .conformances steps
      members := written .members steps })) ∧
    (∀ type, (Draft.extension type).build steps = .decl (.extension {
      type
      conformances := written .conformances steps
      members := written .members steps })) ∧
    (∀ body, (Draft.initializer body).build steps = .decl (.initializer {
      access := (latest .access steps).getD .internal
      parameters := written .parameters steps
      canThrow := isWritten .canThrow steps
      body })) ∧
    (∀ name type, (Draft.ofParameter name type).build steps = .parameter {
      label := latest .label steps
      name
      type
      isInout := isWritten .isInout steps
      defaultValue := latest .defaultValue steps }) ∧
    (∀ others, SameBySlot steps others → ∀ start : Draft α,
      start.build steps = start.build others ∧
      ∀ indentation, (start.build steps).sample.text indentation =
        (start.build others).sample.text indentation) ∧
    -- validation of what is built
    (∀ binding name type,
      ((((Draft.property binding name type).build steps).sample.validate =
          .error (.untypedProperty name)) ↔
        .inferred ∈ steps ∧ ∀ value, .initializer value ∉ steps) ∧
      (((Draft.property binding name type).build steps).sample.validate = .ok () ↔
        ¬ (.inferred ∈ steps ∧ ∀ value, .initializer value ∉ steps))) ∧
    (∀ name, reported (Decl.validateList [((Draft.struct name).build steps).sample]) =
      (written .members steps).flatMap fun member => reported (Decl.validateList [member])) ∧
    (∀ type, reported (Decl.validateList [((Draft.extension type).build steps).sample]) =
      (written .members steps).flatMap fun member => reported (Decl.validateList [member])) := by
  have hreported (member : Decl α) : reported (Decl.validateList [member]) = member.problems := by
    rw [Decl.reported_validateList, Decl.problemsList_singleton]
  simp only [build_eq_after, hreported]
  refine ⟨fun name => ?_, fun binding name type => ?_, fun name type getter => ?_, fun name => ?_,
    fun type => ?_, fun body => ?_, fun name type => ?_, fun others h start => ?_,
    fun binding name type => ?_, fun name => ?_, fun type => ?_⟩
  · simp [Draft.function, after, FunctionDecl.after]
  · simp [Draft.property, after, PropertyDecl.after]
  · simp [Draft.computed, after, ComputedDecl.after]
  · simp [Draft.struct, after, StructDecl.after]
  · simp [Draft.extension, after, ExtensionDecl.after]
  · simp [Draft.initializer, after, InitializerDecl.after]
  · simp [Draft.ofParameter, after, Parameter.after]
  · have hbuild := h.build_eq start
    rw [build_eq_after, build_eq_after] at hbuild
    rw [hbuild]
    exact ⟨rfl, fun indentation => rfl⟩
  · let start : PropertyDecl α := { name, type := some type, binding }
    have huntyped := PropertyDecl.isUntyped_after_iff (d := start) rfl rfl steps
    have hsample : ((Draft.property binding name type).after steps).sample =
        .property (start.after steps) := rfl
    rw [hsample, Decl.validate_property, ← huntyped]
    cases (start.after steps).isUntyped with
    | true => simp [PropertyDecl.after, start]
    | false => simp
  · simp [Draft.struct, after, sample, StructDecl.after]
  · simp [Draft.extension, after, sample, ExtensionDecl.after]

-- The type is dropped before there is a value, and the access is written twice on the way.
def inferredEarly : List (Step Unit) :=
  [.inferred, .access .file, .static, .initializer (.literal (.int 1)), .access .scope]

def inferredLate : List (Step Unit) :=
  [.access .file, .access .scope, .initializer (.literal (.int 1)), .inferred, .static]

theorem drafts_built_slot_by_slot_inferred :
    SameBySlot inferredEarly inferredLate ∧
    (Draft.property .constant "x" "Int").build inferredEarly =
      (Draft.property .constant "x" "Int").build inferredLate ∧
    ((Draft.property .constant "x" "Int").build inferredEarly).sample.validate = .ok () := by
  obtain ⟨-, -, -, -, -, -, -, hsame, hvalid, -, -⟩ := drafts_built_slot_by_slot inferredEarly
  have hslots : SameBySlot inferredEarly inferredLate := by
    intro slot
    cases slot <;> rfl
  have hinitialized :
      ¬ (.inferred ∈ inferredEarly ∧ ∀ value, .initializer value ∉ inferredEarly) := by
    rintro ⟨-, hnone⟩
    exact hnone (.literal (.int 1)) (by simp [inferredEarly])
  exact ⟨hslots, (hsame _ hslots _).1, (hvalid .constant "x" "Int").2.mpr hinitialized⟩

end SwiftSource

import SwiftSource.Tree.Basic

namespace SwiftSource.Demo

-- A payload of the sample is the number of the binding that a variable refers to.
abbrev BindingId := Nat

private def squared (name : String) (id : BindingId) : Expr BindingId :=
  .binary (.variable name id) "*" (.variable name id)

private def assignToSelf (name : String) (id : BindingId) : Stmt BindingId :=
  .expression (.binary (.property (.variable "self" 0) name) "=" (.variable name id))

private def zero (label : String) : Argument (Expr BindingId) :=
  ⟨some label, .literal (.double ⟨0⟩)⟩

private def publicConstant (name type : String) : Decl BindingId :=
  .property { access := .everyone, name, type := some type, binding := .constant }

def point : Decl BindingId :=
  .struct {
    access := .everyone
    name := "Point"
    conformances := ["Equatable"]
    members := [
      publicConstant "x" "Double",
      publicConstant "y" "Double",
      .property {
        name := "origin"
        type := some "Point"
        isStatic := true
        binding := .constant
        initializer := some (.call "Point" [zero "x", zero "y"]) },
      .initializer {
        access := .everyone
        parameters := [{ name := "x", type := "Double" }, { name := "y", type := "Double" }]
        body := [assignToSelf "x" 1, assignToSelf "y" 2] },
      .computed {
        name := "length"
        type := "Double"
        getter := [.returns (some
          (.method (.binary (squared "x" 3) "+" (squared "y" 4)) "squareRoot" []))] }] }

def description : Decl BindingId :=
  .extension {
    type := "Point"
    conformances := ["CustomStringConvertible"]
    members := [
      .computed {
        name := "description"
        type := "String"
        getter := [.returns (some (.call "String"
          [⟨some "describing", .array [.variable "x" 5, .variable "y" 6]⟩]))] }] }

def printAll : Decl BindingId :=
  .function {
    name := "printAll"
    parameters := [{ label := some "_", name := "points", type := "[Point]" }]
    canThrow := true
    body := [
      .guard (.binary (.property (.variable "points" 7) "count") ">" (.literal (.int 0)))
        [.returns none],
      .expression (.loop "point" (.variable "points" 7)
        (.call "print" [⟨none, .variable "point" 8⟩]))] }

def sample : List (Decl BindingId) := [point, description, printAll]

end SwiftSource.Demo

import SwiftSource.Demo.Options
import SwiftSource.Demo.Sample
import SwiftSource.Render.Source
import SwiftSource.Validation

namespace SwiftSource.Demo

structure Outcome where
  code : UInt32
  output : String
  events : List Event
deriving DecidableEq

-- Each declaration is followed by an empty line.
def page (indentation : Indentation) (decls : List (Decl BindingId)) : String :=
  String.join (decls.map fun d => d.text indentation ++ "\n\n")

def run (arguments : List String) : Outcome :=
  match Options.parse arguments with
  | none => ⟨2, "", []⟩
  | some options =>
    if options.validate ∧ Decl.problemsList sample ≠ [] then
      ⟨1, "", (Decl.problemsList sample).map Problem.event⟩
    else
      ⟨0, page options.indentation sample,
        if options.verbose then (Decl.renderList sample).events else []⟩

end SwiftSource.Demo

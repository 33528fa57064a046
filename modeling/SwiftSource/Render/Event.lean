import SwiftSource.Text.Quoted
import SwiftSource.Text.Visible

namespace SwiftSource

-- What is worth noticing while trees are rendered or checked.
inductive Event where
  | declaration (name : Option String)
  | loop (element : String)
  | inline (name : String)
  | untyped (property : String)
deriving DecidableEq

inductive Event.Level where
  | trace
  | debug
deriving DecidableEq

-- Constructs without a counterpart in the language are traced. Declarations are only
-- reported for finding one's way.
def Event.level : Event → Event.Level
  | .declaration _ => .debug
  | .loop _ => .trace
  | .inline _ => .trace
  | .untyped _ => .debug

def Event.message : Event → String
  | .declaration _ => "rendering declaration"
  | .loop _ => "rendering loop as forEach call"
  | .inline _ => "inline declaration rendered as its initializer"
  | .untyped _ => "property has no type and no initializer"

-- A name that may be missing, as it is shown to a reader of the log.
def Event.shownName : Option String → String
  | none => "None"
  | some name => "Some(" ++ Text.quote Text.isHidden name ++ ")"

-- What the event is about, under the key by which it is reported.
def Event.subject : Event → String × String
  | .declaration name => ("name", shownName name)
  | .loop element => ("variable", element)
  | .inline name => ("name", name)
  | .untyped property => ("property", property)

end SwiftSource

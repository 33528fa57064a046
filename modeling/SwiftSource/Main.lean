import SwiftSource.Demo.Run

open SwiftSource

def main (arguments : List String) : IO UInt32 := do
  let outcome := Demo.run arguments
  for event in outcome.events do
    IO.eprintln (event.message ++ " " ++ event.subject.1 ++ "=" ++ event.subject.2)
  if outcome.code = 2 then
    IO.eprintln Demo.Options.usage
  IO.print outcome.output
  return outcome.code

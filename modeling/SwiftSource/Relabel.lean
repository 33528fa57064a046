import SwiftSource.Mark
import SwiftSource.Tree.Map
import SwiftSource.Tree.Traverse

namespace SwiftSource

-- A way to relabel marks. Only `count` depends on the marks met before.
inductive Relabel where
  | keep
  | add (n : Int64)
  | multiply (n : Int64)
  | replace (mark : Mark)
  | spell
  | length
  | even
  | count (start : Int64)
deriving DecidableEq

namespace Relabel

-- The number that is next in the count.
abbrev State := Int64

def start : Relabel → State
  | .count start => start
  | _ => 0

def step (relabel : Relabel) (next : State) (mark : Mark) : Mark × State :=
  match relabel with
  | .keep => (mark, next)
  | .add n => (mark.onNumber (· + n), next)
  | .multiply n => (mark.onNumber (· * n), next)
  | .replace new => (new, next)
  | .spell => (.text mark.shown, next)
  | .length => (.number (Int64.ofNat mark.length), next)
  | .even => (.flag mark.isEven, next)
  | .count _ => (.number next, next + 1)

-- One relabelling after the other at each mark, each with a state of its own.
def stepAll : List Relabel → List State → Mark → Mark × List State
  | relabel :: rest, next :: states, mark =>
    let first := relabel.step next mark
    let others := stepAll rest states first.1
    (others.1, first.2 :: others.2)
  | _, states, mark => (mark, states)

-- The same step, with the marks that were handed to it kept in order.
def recorded (relabel : Relabel) (state : State × List Mark) (mark : Mark) :
    Mark × (State × List Mark) :=
  let result := relabel.step state.1 mark
  (result.1, (result.2, state.2 ++ [mark]))

-- Relabels a fragment, and returns the marks in the order in which they were met.
def map (relabel : Relabel) (fragment : Fragment Mark) : Fragment Mark × List Mark :=
  let result := fragment.mapAccum relabel.recorded (relabel.start, [])
  (result.1, result.2.2)

-- The same by the traversal in a state monad.
def traverse (relabel : Relabel) (fragment : Fragment Mark) : Fragment Mark × List Mark :=
  let action : StateM (State × List Mark) (Fragment Mark) :=
    fragment.traverse fun mark state => relabel.recorded state mark
  let result := action.run (relabel.start, [])
  (result.1, result.2.2)

-- All relabellings in one pass.
def mapAll (relabels : List Relabel) (fragment : Fragment Mark) : Fragment Mark :=
  (fragment.mapAccum (stepAll relabels) (relabels.map start)).1

end Relabel

end SwiftSource

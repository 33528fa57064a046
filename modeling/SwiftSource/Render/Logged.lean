import SwiftSource.Render.Event

namespace SwiftSource

-- A value together with the events on the way to it.
structure Logged (β : Type) where
  value : β
  events : List Event
deriving DecidableEq

namespace Logged

instance : Monad Logged where
  pure value := ⟨value, []⟩
  bind x f :=
    let y := f x.value
    ⟨y.value, x.events ++ y.events⟩

def log (event : Event) : Logged Unit := ⟨(), [event]⟩

variable {β γ : Type}

@[simp]
theorem events_bind (x : Logged β) (f : β → Logged γ) :
    (x >>= f).events = x.events ++ (f x.value).events := rfl

end Logged

end SwiftSource

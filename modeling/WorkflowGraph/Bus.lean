/-!
# Event buses

A bus knows who wants to hear of which event.  Subscribing gives a token, and disposing of the
token ends exactly that registration.  What a registration does when its event is published is
up to the user of the bus: a `Bus H` only keeps handlers of type `H`, in the order in which
they were registered, and publishing an event means to run the handlers that `handlersOf` gives
at that moment.
-/

namespace WorkflowGraph

/-- What remains in the hands of a subscriber: the registration it stands for. -/
structure Token where
  id : Nat
  event : String
deriving DecidableEq, Repr

/-- A handler on a bus. -/
structure Registration (H : Type) where
  token : Token
  handler : H

/-- The handlers registered on a bus, oldest first, and the number of the next one. -/
structure Bus (H : Type) where
  registrations : List (Registration H) := []
  nextId : Nat := 0

namespace Bus

variable {H : Type}

def subscribe (b : Bus H) (event : String) (handler : H) : Token × Bus H :=
  let token : Token := ⟨b.nextId, event⟩
  (token, { registrations := b.registrations ++ [⟨token, handler⟩], nextId := b.nextId + 1 })

/-- Ends the registration of a token; nothing happens if it has ended before. -/
def dispose (b : Bus H) (token : Token) : Bus H :=
  { b with registrations := b.registrations.filter fun r => r.token != token }

def isLive (b : Bus H) (token : Token) : Bool := b.registrations.any fun r => r.token == token

theorem isLive_iff (b : Bus H) (t : Token) : b.isLive t ↔ ∃ r ∈ b.registrations, r.token = t := by
  simp [isLive]

/-- The handlers registered for an event, oldest first. -/
def handlersOf (b : Bus H) (event : String) : List H :=
  (b.registrations.filter fun r => r.token.event == event).map (·.handler)

def count (b : Bus H) (event : String) : Nat := (b.handlersOf event).length

def total (b : Bus H) : Nat := b.registrations.length

end Bus

end WorkflowGraph

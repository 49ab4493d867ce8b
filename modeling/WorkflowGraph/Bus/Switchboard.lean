import Std.Data.ExtTreeMap

/-!
# The tables of an event bus

What a bus keeps is a table of the handlers by their events, each under a number of its own, and
what it gives out are tokens.  A token is shared by all its clones: it is an *address*, under which
there is a cell that tells the event and what is to be done when the token is disposed of.  The
first time this is done, it is taken out of the cell, so that later times do nothing.  Disposing
takes a handler off the list of its event by its number, and a list that has become empty is dropped
from the table, to be made anew by the next registration.

To the outside all this looks like the one list of registrations that `Bus` is.
-/

namespace WorkflowGraph

/-- What the clones of a token share. -/
structure Cell where
  event : String
  /-- The event and the number of the handler to take off; nothing once that has been done. -/
  disposer : Option (String × Nat)
deriving DecidableEq, Repr

/-- The handlers by their events, oldest first, each with its number; the number of the next one;
and the cells of the tokens by their addresses. -/
structure Switchboard (H : Type) where
  handlers : Std.ExtTreeMap String (List (Nat × H)) := ∅
  nextId : Nat := 0
  cells : List Cell := []

namespace Switchboard

variable {H : Type}

/-- Registers a handler and gives out the address of its token. -/
def subscribe (b : Switchboard H) (event : String) (handler : H) : Nat × Switchboard H :=
  let id := b.nextId
  (b.cells.length,
    { handlers := b.handlers.insert event (b.handlers.getD event [] ++ [(id, handler)])
      nextId := id + 1
      cells := b.cells ++ [⟨event, some (event, id)⟩] })

/-- Takes a handler off the list of an event. -/
def remove (b : Switchboard H) (event : String) (id : Nat) : Switchboard H :=
  match b.handlers[event]? with
  | some list =>
    let kept := list.filter fun (own, _) => own != id
    if kept.isEmpty then { b with handlers := b.handlers.erase event }
    else { b with handlers := b.handlers.insert event kept }
  | none => b

/-- Disposes of the token at an address; what there is to do is done only once. -/
def dispose (b : Switchboard H) (address : Nat) : Switchboard H :=
  match b.cells[address]? with
  | some ⟨event, some (list, id)⟩ =>
    { b with cells := b.cells.set address ⟨event, none⟩ }.remove list id
  | _ => b

/-- Whether the token at an address has been disposed of. -/
def isDisposed (b : Switchboard H) (address : Nat) : Bool :=
  b.cells[address]?.any fun cell => cell.disposer.isNone

/-- The handlers that a publication runs which begins now. -/
def snapshot (b : Switchboard H) (event : String) : List H :=
  (b.handlers.getD event []).map (·.2)

def count (b : Switchboard H) (event : String) : Nat :=
  match b.handlers[event]? with
  | some list => list.length
  | none => 0

/-- The number of handlers in all lists. -/
def total (b : Switchboard H) : Nat :=
  (b.handlers.toList.map fun entry => entry.2.length).foldr (· + ·) 0

end Switchboard

end WorkflowGraph

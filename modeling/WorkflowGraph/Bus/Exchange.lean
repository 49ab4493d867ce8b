import WorkflowGraph.Bus.Switchboard
import WorkflowGraph.Text.Outline

/-!
# Handlers that act on their own bus

A handler may subscribe, dispose and publish while it is being run.  An `Exchange` is a bus of
such handlers: each of them leaves its label in a journal and then carries out a list of acts
on the exchange.  A publication runs the handlers that were registered when it began, whatever
they do to the bus meanwhile.

Publications may nest without end, so `perform` is given a number of levels and has no result
if they do not suffice.
-/

namespace WorkflowGraph

/-- Something done to an exchange. -/
inductive Act where
  /-- Registers a handler for an event, under a label, with what it does when it is run. -/
  | subscribe (label event : String) (acts : List Act)
  | publish (event : String)
  | dispose (label : String)
  | count (event : String)
  | info (label : String)
  | describe
  /-- Gives up the bus: nobody can subscribe or publish from then on. -/
  | close

/-- A handler on an exchange. -/
structure Reaction where
  label : String
  acts : List Act

/-- A bus whose handlers act on it, the addresses of the tokens by their labels, and what has been
run. -/
structure Exchange where
  bus : Switchboard Reaction := {}
  isOpen : Bool := true
  tokens : List (String × Nat) := []
  journal : List String := []

/-- What an act tells. -/
inductive Answer where
  | nothing
  | count (n : Nat)
  | info (event : String) (disposed : Bool)
  | text (s : String)

namespace Exchange

/-- How many publications may be nested in each other. -/
def levels : Nat := 4096

/-- The description of a bus. -/
def describe {H : Type} (b : Switchboard H) : String :=
  Text.Outline.record "EventBus" [("subscribers", toString b.total)]

def total? (x : Exchange) : Option Nat := if x.isOpen then some x.bus.total else none

def subscribe (x : Exchange) (label event : String) (acts : List Act) : Exchange :=
  if x.isOpen then
    let (address, bus) := x.bus.subscribe event ⟨label, acts⟩
    { x with bus, tokens := (label, address) :: x.tokens }
  else x

/-- Ends the latest registration under a label. -/
def dispose (x : Exchange) (label : String) : Exchange :=
  match x.tokens.lookup label with
  | some address => { x with bus := x.bus.dispose address }
  | none => x

/-- What there is to know about the latest registration under a label. -/
def info (x : Exchange) (label : String) : Answer :=
  let told := do
    let address ← x.tokens.lookup label
    let cell ← x.bus.cells[address]?
    return Answer.info cell.event (x.bus.isDisposed address)
  told.getD .nothing

/-- Carries out an act, with the given number of levels left for publications. -/
def perform : Nat → Act → Exchange → Option (Answer × Exchange)
  | _, .subscribe label event acts, x => some (.nothing, x.subscribe label event acts)
  | _, .dispose label, x => some (.nothing, x.dispose label)
  | _, .count event, x => some (if x.isOpen then .count (x.bus.count event) else .nothing, x)
  | _, .info label, x => some (x.info label, x)
  | _, .describe, x => some (if x.isOpen then .text (describe x.bus) else .nothing, x)
  | _, .close, x => some (.nothing, { x with isOpen := false })
  | 0, .publish _, _ => none
  | level + 1, .publish event, x => do
    let handlers := if x.isOpen then x.bus.snapshot event else []
    let x ← handlers.foldlM (fun x (r : Reaction) => do
      let x := { x with journal := x.journal ++ [r.label] }
      r.acts.foldlM (fun x act => return (← perform level act x).2) x) x
    pure (.nothing, x)

end Exchange

end WorkflowGraph

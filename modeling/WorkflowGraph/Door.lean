import WorkflowGraph.Document
import WorkflowGraph.Runner.Settings

/-!
# The door

A door as a workflow graph.  A closed door waits for a knock, greets, swings open, holds and
swings to again.  Two events come from outside: `lockdown` locks the door at any moment, and
`doorbell` makes it greet.
-/

namespace WorkflowGraph.Door

open Json

/-- The key that tells whether the door is open. -/
def openKey : String := "door_open"

/-- An object in data. -/
def data (members : List (String × Json)) : Json := ofMembers members

/-- A node of the door. -/
def node (guid : Guid) (x y : Float32) (type : String) (members : List (String × Json)) :
    AuthoredNode :=
  { guid, position := ⟨x, y⟩, node := some ⟨type, data members⟩ }

/-- A time in data. -/
def seconds (x : Float) : List (String × Json) := [("seconds", .number (.double x))]

/-- Data that sets whether the door is open. -/
def setOpen (value : Bool) : List (String × Json) :=
  [("entries", .array
    [data [("key", .string openKey),
      ("value", data [("type", .string "bool"), ("value", .boolean value)])]])]

/-- An edge of the door. -/
def edge (guid source target : Guid) (condition : Option Spec) : AuthoredEdge :=
  { guid, source, port := "Next", target, condition }

/-- A condition in the data of another one. -/
def part (type : String) (members : List (String × Json)) : Json :=
  data [("type", .string type), ("data", data members)]

/-- There has been a knock and the door is not open. -/
def knockedWhileClosed : Spec :=
  ⟨"All", data
    [("conditions", .array
      [part "EventFired" [("event", .string "knock")],
        part "Not"
          [("inner", part "Compare"
            [("key", .string openKey), ("op", .string "=="),
              ("value", data [("type", .string "bool"), ("value", .boolean true)])])]])]⟩

/-- The wait of the current node is over. -/
def waited : Spec := ⟨"WaitElapsed", .null⟩

/-- The graph of the door. -/
def document : Document where
  entry := some "closed"
  nodes :=
    [node "closed" 0 0 "WaitEvent" [("event", .string "knock")],
      node "greet" 200 0 "Log" [("message", .string "who's there?")],
      node "opening" 400 0 "Wait" (seconds 1),
      node "open" 600 0 "SetBlackboard" (setOpen true),
      node "hold" 600 200 "Wait" (seconds 2),
      node "closing" 400 200 "SetBlackboard" (setOpen false),
      node "locked" 0 200 "Wait" (seconds 3)]
  edges :=
    [edge "knocked" "closed" "greet" (some knockedWhileClosed),
      edge "greeted" "greet" "opening" none,
      edge "swung" "opening" "open" (some waited),
      edge "opened" "open" "hold" none,
      edge "held" "hold" "closing" (some waited),
      edge "closed-again" "closing" "closed" none,
      edge "unlocked" "locked" "closing" (some waited)]
  defaults := [⟨openKey, .bool false⟩]

/-- The settings of the door. -/
def settings : RunnerSettings where
  machine := { mode := .untilStable, budget := 8 }
  bindings := [⟨"doorbell", "greet"⟩, ⟨"lockdown", "locked"⟩]

end WorkflowGraph.Door

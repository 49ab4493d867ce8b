import WorkflowGraph.History
import WorkflowGraph.Json.Printer

/-!
# Settings of a machine
-/

namespace WorkflowGraph

/-- How many automatic transitions a tick may take. -/
inductive Mode where
  /-- At most one. -/
  | single
  /-- As many as there are, up to the budget of the tick. -/
  | untilStable
deriving DecidableEq, Repr

namespace Mode

/-- The names of the modes. -/
def names : List (String × Mode) := [("Single", .single), ("ResolveUntilStable", .untilStable)]

def name : Mode → String
  | .single => "Single"
  | .untilStable => "ResolveUntilStable"

end Mode

/-- What can be set about a machine. -/
structure MachineSettings where
  mode : Mode := .single
  /-- The greatest number of transitions that resolution may make in a tick. -/
  budget : Nat := 32
  /-- The number of transitions kept in the history. -/
  historyCapacity : Nat := History.defaultCapacity
deriving DecidableEq, Repr

namespace MachineSettings

open Json

/-- How settings are read; every field may be left out. -/
def decoder : Decoder MachineSettings :=
  Decoder.record "MachineConfig" {}
    [.spare "mode" (.variant Mode.names) fun s mode => { s with mode },
      .spare "max_transitions_per_tick" .size fun s budget => { s with budget },
      .spare "history_capacity" .size fun s historyCapacity => { s with historyCapacity }]

def toJson (s : MachineSettings) : Json :=
  .object
    [("mode", .string s.mode.name),
      ("max_transitions_per_tick", .number (.integer s.budget)),
      ("history_capacity", .number (.integer s.historyCapacity))]

end MachineSettings

end WorkflowGraph

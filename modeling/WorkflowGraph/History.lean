import WorkflowGraph.Guid
import WorkflowGraph.Json.Decoder

/-!
# The transition history

A machine records every change of node.  The history keeps the most recent records, as many as
its capacity allows, and counts all of them.  It is there to be looked at: no decision of the
machine depends on it.
-/

namespace WorkflowGraph

/-- Why a machine changed node. -/
inductive Reason where
  /-- A run began with the entry node. -/
  | start
  /-- The host asked for the node. -/
  | manual
  /-- A node asked for the node. -/
  | requested
  /-- An edge was taken. -/
  | autoEdge
  /-- An event that is bound to the node came in. -/
  | externalEvent
deriving DecidableEq, Repr

namespace Reason

def label : Reason → String
  | .start => "start"
  | .manual => "manual"
  | .requested => "requested"
  | .autoEdge => "auto_edge"
  | .externalEvent => "external_event"

def decoder : Json.Decoder Reason :=
  Json.Decoder.variant
    [("Start", .start), ("Manual", .manual), ("Requested", .requested), ("AutoEdge", .autoEdge),
      ("ExternalEvent", .externalEvent)]

end Reason

/-- One change of node. -/
structure Transition where
  time : Nat
  /-- The frame in which it happened. -/
  frame : Nat
  /-- The node that was left; none at the start of a run. -/
  source : Option Guid
  target : Guid
  reason : Reason
  edge : Option Guid
  /-- The port of that edge. -/
  port : Option String
deriving DecidableEq, Repr

/-- The most recent transitions, oldest first, and the number of all transitions so far. -/
structure History where
  records : List Transition := []
  capacity : Nat
  total : Nat := 0
deriving DecidableEq, Repr

namespace History

/-- The number of records kept unless a host says otherwise. -/
def defaultCapacity : Nat := 64

def empty (capacity : Nat) : History := { capacity }

/-- Adds a record.  The oldest ones make room for it; without capacity it is only counted. -/
def push (h : History) (t : Transition) : History :=
  { h with
    records :=
      if h.capacity = 0 then h.records
      else h.records.drop (h.records.length + 1 - h.capacity) ++ [t]
    total := h.total + 1 }

def last? (h : History) : Option Transition := h.records.getLast?

/-- Drops all records; the count stays. -/
def clear (h : History) : History := { h with records := [] }

/-- The nodes entered, newest first. -/
def targetsReversed (h : History) : List Guid := (h.records.map (·.target)).reverse

end History

end WorkflowGraph

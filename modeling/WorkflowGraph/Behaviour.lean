import WorkflowGraph.Context

/-!
# Behaviours and conditions

A node of a graph is given by its behaviour: what it does to the session on each of the four
occasions on which it is called, and the ports it offers to edges.  An edge may be guarded by a
condition, which looks at the session and changes nothing.
-/

namespace WorkflowGraph

/-- The port of a node that names none, and of an edge that names none. -/
def defaultPort : String := "Next"

/-- The port of an authored name: the empty name stands for the default port, and every other
name for itself. -/
def portNamed (port : String) : String := if port.isEmpty then defaultPort else port

structure Behaviour where
  /-- The name of the kind of node. -/
  typeName : String
  /-- The declared ports, in the order in which edges are tried. -/
  ports : List String := [defaultPort]
  onEnter : Session → Session := id
  onUpdate : Session → Session := id
  onFixedUpdate : Session → Session := id
  onExit : Session → Session := id

namespace Behaviour

def onPhase (b : Behaviour) : Phase → Session → Session
  | .enter => b.onEnter
  | .update => b.onUpdate
  | .fixedUpdate => b.onFixedUpdate
  | .exit => b.onExit

/-- The ports that edges are matched with.  A node that declares none has the default port. -/
def resolvedPorts (b : Behaviour) : List String :=
  if b.ports.isEmpty then [defaultPort] else b.ports.map portNamed

/-- A node that does nothing: a junction, or the end of a graph. -/
def empty : Behaviour := { typeName := "trellis_graph::node::EmptyNode" }

/-- A behaviour that enters each call into the journal before it acts. -/
def observed (b : Behaviour) : Behaviour :=
  let call (phase : Phase) (s : Session) : Session :=
    b.onPhase phase (s.note (.callback phase s.context.currentNode))
  { b with
    onEnter := call .enter
    onUpdate := call .update
    onFixedUpdate := call .fixedUpdate
    onExit := call .exit }

def describe (b : Behaviour) : String :=
  Text.Outline.record "Node"
    [("type", Text.quoted b.typeName),
      ("ports", Text.Outline.list (b.ports.map Text.quoted))]

end Behaviour

/-- A question about the session. -/
structure Condition where
  /-- The name of the kind of condition. -/
  typeName : String
  holds : Session → Bool

namespace Condition

def describe (c : Condition) : String :=
  Text.Outline.record "Condition" [("type", Text.quoted c.typeName)]

end Condition

end WorkflowGraph

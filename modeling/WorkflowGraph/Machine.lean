import WorkflowGraph.Clock
import WorkflowGraph.Graph.Defect
import WorkflowGraph.Machine.Settings

/-!
# Machines

A machine walks a graph one node at a time.  A tick honours a request for a node, calls the
current node once, and then resolves: it follows edges, and in the mode `untilStable` further
requests as well, until nothing moves or the budget of the tick is spent.

## Which edge is taken

The ports of the current node are tried in the order of their declaration, and for each port
its edges in the order in which they were authored; edges from ports that the node does not
declare come last.  The first edge that can be taken is the one.

## What a change of node does

`Machine.enter?` is the only way to another node.  It refuses a node that is current already or
that the graph does not know.  Otherwise the current node is called for the last time and loses
its registrations, the transition is recorded, and the new node is called.
-/

namespace WorkflowGraph

/-- Whether a machine is between a start and a stop. -/
inductive RunState where
  | stopped
  | running
deriving DecidableEq, Repr

/-- Why a machine did not start. -/
inductive StartError where
  | invalidGraph (defects : List Defect)
  | noEntryNode
deriving DecidableEq, Repr

def StartError.message : StartError → String
  | .invalidGraph defects =>
    "graph failed validation with " ++ toString defects.length ++ " error(s)"
  | .noEntryNode => "graph has no entry node"

/-- What happened in a tick. -/
structure Report where
  /-- The number of changes of node. -/
  transitions : Nat := 0
  /-- The number of those made by resolution. -/
  resolved : Nat := 0
  /-- Whether resolution stopped because its budget was spent. -/
  capped : Bool := false
deriving DecidableEq, Repr

structure Machine where
  graph : Graph
  session : Session
  current : Option Guid := none
  previous : Option Guid := none
  mode : Mode := .single
  /-- The greatest number of transitions that resolution makes in a tick. -/
  budget : Nat := 32
  budget_pos : 0 < budget := by decide
  history : History := History.empty History.defaultCapacity
  clock : Clock := {}
  state : RunState := .stopped
  /-- The number of ticks since the start. -/
  frame : Nat := 0

namespace Machine

/-! ## Setting up -/

def create (graph : Graph) (session : Session) : Machine := { graph, session }

/-- The machine with a budget, which is one at the least. -/
def withBudget (m : Machine) (budget : Nat) : Machine :=
  { m with budget := max budget 1, budget_pos := Nat.le_max_right budget 1 }

/-- The machine with the given settings and an empty history. -/
def withSettings (m : Machine) (s : MachineSettings) : Machine :=
  { m with mode := s.mode, history := History.empty s.historyCapacity }.withBudget s.budget

def onSession (m : Machine) (f : Session → Session) : Machine := { m with session := f m.session }

def isRunning (m : Machine) : Bool := m.state == .running

/-! ## Changing node -/

/-- Calls a node for the last time and ends its registrations. -/
def leave (m : Machine) (guid : Guid) : Machine :=
  m.onSession fun s =>
    let s := match m.graph.behaviour? guid with
      | some b => b.onExit s
      | none => s
    (s.releaseNode guid).2

/-- Enters a node, along an edge if one is given, unless it is current or unknown. -/
def enter? (m : Machine) (target : Guid) (reason : Reason) (edge : Option Edge) :
    Option Machine :=
  if m.current = some target then none
  else
    match m.graph.behaviour? target with
    | none => none
    | some next =>
      let left := match m.current with
        | some guid => m.leave guid
        | none => m
      some
        { left with
          previous := m.current
          current := some target
          history := m.history.push
            { time := m.clock.now
              frame := m.frame
              source := m.current
              target
              reason
              edge := edge.map (·.guid)
              port := edge.map (·.port) }
          session := next.onEnter
            (left.session.onContext fun c => { c with currentNode := some target }) }

/-- Takes the request out of the mailbox and honours it.  Tells whether the node changed. -/
def drain (m : Machine) : Bool × Machine :=
  match m.session.context.requested with
  | none => (false, m)
  | some guid =>
    let m := m.onSession fun s => s.onContext Context.forgetRequest
    match m.enter? guid .requested none with
    | some entered => (true, entered)
    | none => (false, m)

/-! ## Resolution -/

/-- The edge that resolution takes from the current node. -/
def bestEdge (m : Machine) : Option Edge := do
  let guid ← m.current
  let b ← m.graph.behaviour? guid
  let ports := b.resolvedPorts
  let outgoing := m.graph.outgoing guid
  (ports.findSome? fun port =>
      (outgoing.filter fun e => e.port == port).find? fun e => e.passes m.session) <|>
    (outgoing.filter fun e => !ports.contains e.port).find? fun e => e.passes m.session

/-- Follows the chosen edge, if there is one and it leads to another node. -/
def follow? (m : Machine) : Option Machine := do
  let e ← m.bestEdge
  m.enter? e.target .autoEdge (some e)

/-- Whether going to a node would change the current node. -/
def moves (m : Machine) (target : Guid) : Bool :=
  m.current != some target && m.graph.contains target

/-- Whether a further step of resolution would change the current node. -/
def canMove (m : Machine) : Bool :=
  m.session.context.requested.any m.moves || m.bestEdge.any fun e => m.moves e.target

/-- How resolution ended: the number of its transitions, whether it stopped because the budget
was spent, and the machine it left behind. -/
structure Resolution where
  moved : Nat
  capped : Bool
  machine : Machine

/-- The resolution with one transition more in front of it. -/
def Resolution.afterMove (r : Resolution) : Resolution := { r with moved := r.moved + 1 }

/-- Honours requests and follows edges until nothing moves or the budget is spent. -/
def settle : Nat → Machine → Resolution
  | 0, m => ⟨0, m.canMove, m⟩
  | budget + 1, m =>
    match m.drain with
    | (true, m) => (settle budget m).afterMove
    | (false, m) =>
      match m.follow? with
      | some m => (settle budget m).afterMove
      | none => ⟨0, false, m⟩

def resolve (m : Machine) : Resolution :=
  match m.mode with
  | .single =>
    match m.follow? with
    | some m => ⟨1, false, m⟩
    | none => ⟨0, false, m⟩
  | .untilStable => settle m.budget m

/-! ## The life of a run -/

/-- Starts a run at the entry node.  A running machine stays as it is. -/
def start (m : Machine) : Except StartError Machine :=
  if m.isRunning then .ok m
  else
    match m.graph.defects, m.graph.resolvedEntry with
    | [], some entry =>
      let m := { m with state := .running, frame := 0 }
      .ok ((m.enter? entry .start none).getD m)
    | [], none => .error .noEntryNode
    | defects, _ => .error (.invalidGraph defects)

/-- Stops the run: leaves the current node and disposes of the context. -/
def stop (m : Machine) : Machine :=
  if m.isRunning then
    let left := match m.current with
      | some guid => { m with current := none }.leave guid
      | none => m
    { left with previous := none, session := left.session.dispose, state := .stopped }
  else m

def call (m : Machine) (phase : Phase) : Machine :=
  match m.current.bind m.graph.behaviour? with
  | some b => m.onSession (b.onPhase phase)
  | none => m

def flush (m : Machine) : Machine := m.onSession fun s => s.flush.2

/-- The part of a tick before resolution.  Tells whether a request changed the node. -/
def advance (m : Machine) (deltaTime : Float32) : Bool × Machine :=
  let (entered, m) := { m with frame := m.frame + 1 }.flush.drain
  let m := m.onSession fun s => s.onContext fun c => { c with deltaTime }
  (entered, (m.call .update).flush)

/-- Advances a running machine by one frame. -/
def tick (m : Machine) (deltaTime : Float32) : Report × Machine :=
  if m.isRunning then
    let (entered, m) := m.advance deltaTime
    let r := m.resolve
    (⟨r.moved + entered.toNat, r.moved, r.capped⟩, r.machine)
  else ({}, m)

/-- Advances a running machine by one fixed frame, in which nothing is resolved. -/
def tickFixed (m : Machine) (fixedDeltaTime : Float32) : Machine :=
  if m.isRunning then
    (m.onSession fun s => s.onContext fun c => { c with fixedDeltaTime }).call .fixedUpdate
  else m

/-- Sends a running machine to a node.  Tells whether the node changed. -/
def force (m : Machine) (guid : Guid) (reason : Reason) : Bool × Machine :=
  if m.isRunning then
    match m.enter? guid reason none with
    | some entered => (true, entered)
    | none => (false, m)
  else (false, m)

/-- Sends a running machine to a node on behalf of the host. -/
def enter (m : Machine) (guid : Guid) : Bool × Machine := m.force guid .manual

/-- Sends a running machine to a node on behalf of an event. -/
def enterFromEvent (m : Machine) (guid : Guid) : Bool × Machine := m.force guid .externalEvent

def describe (m : Machine) : String :=
  Text.Outline.record "Machine"
    [("state", match m.state with
        | .stopped => "Stopped"
        | .running => "Running"),
      ("current", Context.describeNode m.current),
      ("previous", Context.describeNode m.previous),
      ("mode", m.mode.name),
      ("max_transitions_per_tick", toString m.budget),
      ("frame", toString m.frame),
      ("history", toString m.history.records.length)]

end Machine

end WorkflowGraph

import WorkflowGraph.Machine
import WorkflowGraph.Runner.Settings

/-!
# Runners

A runner drives a machine from the frames of a host.  It can be paused, it scales time, it lays
overrides over the defaults of the graph, and it leads events from outside to nodes.

Such events may come at any moment, so a bound handler only puts the node into the queue of the
runner.  The queue is worked off at the beginning of the next step; when it is full, the oldest
entry is lost.
-/

namespace WorkflowGraph

structure Runner where
  machine : Machine
  /-- Where the runner receives events. -/
  address : Nat
  bindings : List Binding := []
  overrides : List Entry := []
  /-- The registrations of the bindings. -/
  tokens : List Token := []
  enabled : Bool := false
  paused : Bool := false
  timeScale : Float32 := 1.0

namespace Runner

/-- A usable time scale: what is negative or not finite becomes zero. -/
def usableScale (timeScale : Float32) : Float32 :=
  if timeScale.isFinite && 0.0 < timeScale then timeScale else 0.0

/-- A stopped runner for a graph on a hub. -/
def create (graph : Graph) (h : Hub) (settings : RunnerSettings) : Runner :=
  let (address, h) := h.allocate
  { machine := (Machine.create graph (Session.attach h)).withSettings settings.machine
    address
    bindings := settings.bindings
    overrides := settings.overrides
    paused := settings.startPaused
    timeScale := usableScale settings.timeScale }

def onMachine (r : Runner) (f : Machine → Machine) : Runner := { r with machine := f r.machine }

def onSession (r : Runner) (f : Session → Session) : Runner := r.onMachine fun m => m.onSession f

def hub (r : Runner) : Hub := r.machine.session.hub

/-- The runner with something of the host attached to its context. -/
def ownedBy (r : Runner) (owner : Owner) : Runner :=
  r.onSession fun s => s.onContext fun c => { c with owner := some owner }

/-- The nodes that wait for the next step. -/
def pending (r : Runner) : List Guid := r.hub.queue r.address

def clearPending (r : Runner) : Runner :=
  r.onSession fun s => s.onHub fun h => h.clearQueue r.address

/-! ## Bindings -/

/-- Registers the handlers of bindings, oldest first. -/
def subscribeAll (address : Nat) (h : Hub) : List Binding → List Token × Hub
  | [] => ([], h)
  | b :: rest =>
    let (token, h) := h.subscribe b.event (.enqueue address b.target)
    let (tokens, h) := subscribeAll address h rest
    (token :: tokens, h)

/-- Lets events through. -/
def enable (r : Runner) : Runner :=
  if r.enabled then r
  else
    let (tokens, h) := subscribeAll r.address r.hub r.bindings
    { r.onSession fun s => s.onHub fun _ => h with tokens := r.tokens ++ tokens, enabled := true }

/-- Lets no more events through. -/
def disable (r : Runner) : Runner :=
  if r.enabled then
    { r.onSession fun s => s.onHub fun h => h.disposeEach r.tokens with
      tokens := [], enabled := false }
  else r

/-! ## The life of a run -/

/-- Seeds the blackboard and starts the machine; then lets events through.  A running runner
stays as it is. -/
def start (r : Runner) : Except StartError Unit × Runner :=
  if r.machine.isRunning then (.ok (), r)
  else
    let initial := Entry.overlay r.machine.graph.defaults r.overrides
    let r := (r.onSession fun s => (s.onContext fun c => { c with initial }).reset).clearPending
    match r.machine.start with
    | .ok machine => (.ok (), { r with machine }.enable)
    | .error e => (.error e, r)

/-- Stops the machine, empties the queue and lets no more events through. -/
def stop (r : Runner) : Runner := ((r.onMachine Machine.stop).clearPending).disable

/-- Sends the machine to nodes, and counts the changes of node. -/
def enterAll (m : Machine) : List Guid → Nat × Machine
  | [] => (0, m)
  | guid :: rest =>
    let (entered, m) := m.enterFromEvent guid
    let (count, m) := enterAll m rest
    (entered.toNat + count, m)

/-- Works off the queue. -/
def drainPending (r : Runner) : Nat × Runner :=
  let queued := r.pending
  let r := r.clearPending
  let (entered, machine) := enterAll r.machine queued
  (entered, { r with machine })

/-- Advances by one frame, paused or not. -/
def step (r : Runner) (deltaTime : Float32) : Report × Runner :=
  let (entered, r) := r.drainPending
  let (report, machine) := r.machine.tick (deltaTime * r.timeScale)
  ({ report with transitions := report.transitions + entered }, { r with machine })

/-- Advances by one fixed frame, paused or not. -/
def stepFixed (r : Runner) (fixedDeltaTime : Float32) : Runner :=
  r.onMachine fun m => m.tickFixed (fixedDeltaTime * r.timeScale)

/-- Advances by one frame unless paused. -/
def tick (r : Runner) (deltaTime : Float32) : Option Report × Runner :=
  if r.paused then (none, r)
  else
    let (report, r) := r.step deltaTime
    (some report, r)

/-- Advances by one fixed frame unless paused.  Tells whether it did. -/
def tickFixed (r : Runner) (fixedDeltaTime : Float32) : Bool × Runner :=
  if r.paused then (false, r) else (true, r.stepFixed fixedDeltaTime)

/-! ## Time -/

def pause (r : Runner) : Runner := { r with paused := true }

def resume (r : Runner) : Runner := { r with paused := false }

/-- Sets the factor of all times. -/
def scaleTime (r : Runner) (timeScale : Float32) : Runner :=
  { r with timeScale := usableScale timeScale }

/-- Gives up the runner: nothing of it stays on the hub. -/
def close (r : Runner) : Hub := r.disable.machine.session.release.hub

def describe (r : Runner) : String :=
  Text.Outline.record "Runner"
    [("machine", r.machine.describe),
      ("bindings", Text.Outline.list (r.bindings.map Binding.describe)),
      ("enabled", Text.Outline.truth r.enabled),
      ("paused", Text.Outline.truth r.paused),
      ("time_scale", Decimal.preciseSingle r.timeScale),
      ("pending", toString r.pending.length)]

end Runner

end WorkflowGraph

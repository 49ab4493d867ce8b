import WorkflowGraph.Proofs.Deed
import WorkflowGraph.Proofs.Transition

/-!
# The chronicle of a run

What happens while a machine is operated, moment by moment: a node is called, a node or a host
does a deed, the machine does one itself, or the conditions of edges are looked at.  For every
operation of `Machine` there is its list of moments, taken along the machines that the operation
goes through: `leaveMoments` for `leave`, `settleMoments` for `settle`, and so on.  The deeds of the
callbacks are a parameter, `deeds`; where the nodes of the graph act by them, the moments of a run
account for everything that happened to the session.

A run is given by the commands of the host, in any order: the operations of the machine, and
deeds of the host's own between them.
-/

namespace WorkflowGraph

/-- Something that happens in a run. -/
inductive Moment where
  /-- A node is called. -/
  | called (phase : Phase) (node : Guid)
  /-- A node or the host does something. -/
  | did (deed : Deed)
  /-- The machine does something. -/
  | managed (deed : Deed)
  /-- The conditions of the edges of the current node are looked at. -/
  | compared

namespace Moment

/-- What a moment does to the session. -/
def replay : Moment → Session → Session
  | .did d, s | .managed d, s => d.perform s
  | .called .., s | .compared, s => s

/-- The session after some moments. -/
def replayAll (moments : List Moment) (s : Session) : Session :=
  moments.foldl (fun s m => m.replay s) s

@[simp] lemma replayAll_nil (s : Session) : replayAll [] s = s := rfl

@[simp] lemma replayAll_cons (m : Moment) (rest : List Moment) (s : Session) :
    replayAll (m :: rest) s = replayAll rest (m.replay s) := rfl

@[simp] lemma replayAll_append (before after : List Moment) (s : Session) :
    replayAll (before ++ after) s = replayAll after (replayAll before s) :=
  List.foldl_append

end Moment

namespace Machine

variable (deeds : Guid → Phase → Session → List Deed)

/-! ## Changing node -/

/-- A node is called and does its deeds. -/
def callMoments (phase : Phase) (guid : Guid) (s : Session) : List Moment :=
  .called phase guid :: (deeds guid phase s).map .did

def leaveMoments (m : Machine) (guid : Guid) : List Moment :=
  (match m.graph.behaviour? guid with
    | some _ => callMoments deeds .exit guid m.session
    | none => []) ++ [.managed (.releaseNode guid)]

/-- The machine that has left its current node, if there is one. -/
def departed (m : Machine) : Machine :=
  match m.current with
  | some guid => m.leave guid
  | none => m

/-- The moments of `Machine.enter?` when the node is entered. -/
def enterMoments (m : Machine) (target : Guid) : List Moment :=
  (match m.current with
    | some guid => m.leaveMoments deeds guid
    | none => []) ++
    .managed (.place (some target)) ::
      callMoments deeds .enter target ((Deed.place (some target)).perform m.departed.session)

/-- The moments of an attempt to enter a node; one that is refused goes unnoticed. -/
def attemptMoments (m : Machine) (target : Guid) (reason : Reason) (edge : Option Edge) :
    List Moment :=
  if (m.enter? target reason edge).isSome then m.enterMoments deeds target else []

def drainMoments (m : Machine) : List Moment :=
  .managed .takeRequest ::
    match m.session.context.requested with
    | some guid => m.withoutRequest.attemptMoments deeds guid .requested none
    | none => []

/-! ## Resolution -/

def followMoments (m : Machine) : List Moment :=
  .compared ::
    match m.bestEdge with
    | some e => m.attemptMoments deeds e.target .autoEdge (some e)
    | none => []

/-- The moments of `Machine.settle`.  When the budget is spent, the edges are looked at once more
unless a request is seen to move the machine. -/
def settleMoments : Nat → Machine → List Moment
  | 0, m => if m.session.context.requested.any m.moves then [] else [.compared]
  | budget + 1, m =>
    m.drainMoments deeds ++
      match m.drain with
      | (true, m) => settleMoments budget m
      | (false, m) =>
        m.followMoments deeds ++
          match m.follow? with
          | some m => settleMoments budget m
          | none => []

def resolveMoments (m : Machine) : List Moment :=
  match m.mode with
  | .single => m.followMoments deeds
  | .untilStable => settleMoments deeds m.budget m

/-! ## The life of a run -/

def startMoments (m : Machine) : List Moment :=
  if m.isRunning then []
  else
    match m.graph.defects, m.graph.resolvedEntry with
    | [], some entry =>
      attemptMoments deeds { m with state := .running, frame := 0 } entry .start none
    | _, _ => []

def stopMoments (m : Machine) : List Moment :=
  if m.isRunning then
    (match m.current with
      | some guid => leaveMoments deeds { m with current := none } guid
      | none => []) ++ [.managed .dispose]
  else []

def currentMoments (m : Machine) (phase : Phase) : List Moment :=
  match m.current with
  | some guid =>
    if (m.graph.behaviour? guid).isSome then callMoments deeds phase guid m.session else []
  | none => []

def advanceMoments (m : Machine) (deltaTime : Float32) : List Moment :=
  let flushed := { m with frame := m.frame + 1 }.flush
  let timed := flushed.drain.2.onSession (Deed.elapse deltaTime).perform
  .managed .flush :: flushed.drainMoments deeds ++ .managed (.elapse deltaTime) ::
    timed.currentMoments deeds .update ++ [.managed .flush]

def tickMoments (m : Machine) (deltaTime : Float32) : List Moment :=
  if m.isRunning then
    m.advanceMoments deeds deltaTime ++ (m.advance deltaTime).2.resolveMoments deeds
  else []

def tickFixedMoments (m : Machine) (fixedDeltaTime : Float32) : List Moment :=
  if m.isRunning then
    .managed (.elapseFixed fixedDeltaTime) ::
      (m.onSession (Deed.elapseFixed fixedDeltaTime).perform).currentMoments deeds .fixedUpdate
  else []

def forceMoments (m : Machine) (guid : Guid) (reason : Reason) : List Moment :=
  if m.isRunning then m.attemptMoments deeds guid reason none else []

end Machine

/-! ## Commands -/

/-- What a host does with a machine. -/
inductive Command where
  | start
  | stop
  | tick (deltaTime : Float32)
  | tickFixed (fixedDeltaTime : Float32)
  /-- Sends the machine to a node on behalf of the host. -/
  | enter (guid : Guid)
  /-- Sends the machine to a node on behalf of an event. -/
  | enterFromEvent (guid : Guid)
  /-- Lets the clock show another time. -/
  | setClock (clock : Clock)
  /-- Does something to the session. -/
  | host (deed : Deed)

namespace Command

/-- The machine after the command.  A start that fails leaves the machine as it was. -/
def perform : Command → Machine → Machine
  | .start, m => m.start.toOption.getD m
  | .stop, m => m.stop
  | .tick deltaTime, m => (m.tick deltaTime).2
  | .tickFixed fixedDeltaTime, m => m.tickFixed fixedDeltaTime
  | .enter guid, m => (m.enter guid).2
  | .enterFromEvent guid, m => (m.enterFromEvent guid).2
  | .setClock clock, m => { m with clock }
  | .host deed, m => m.onSession deed.perform

/-- The machine after some commands. -/
def performAll (commands : List Command) (m : Machine) : Machine :=
  commands.foldl (fun m c => c.perform m) m

@[simp] lemma performAll_nil (m : Machine) : performAll [] m = m := rfl

@[simp] lemma performAll_cons (c : Command) (rest : List Command) (m : Machine) :
    performAll (c :: rest) m = performAll rest (c.perform m) := rfl

@[simp] lemma performAll_append (before after : List Command) (m : Machine) :
    performAll (before ++ after) m = performAll after (performAll before m) :=
  List.foldl_append

variable (deeds : Guid → Phase → Session → List Deed)

/-- What happens while a command is carried out. -/
def moments : Command → Machine → List Moment
  | .start, m => m.startMoments deeds
  | .stop, m => m.stopMoments deeds
  | .tick deltaTime, m => m.tickMoments deeds deltaTime
  | .tickFixed fixedDeltaTime, m => m.tickFixedMoments deeds fixedDeltaTime
  | .enter guid, m => m.forceMoments deeds guid .manual
  | .enterFromEvent guid, m => m.forceMoments deeds guid .externalEvent
  | .setClock _, _ => []
  | .host deed, _ => [.did deed]

/-- The chronicle of a run: what happens while commands are carried out. -/
def chronicle : List Command → Machine → List Moment
  | [], _ => []
  | c :: rest, m => c.moments deeds m ++ chronicle rest (c.perform m)

end Command

end WorkflowGraph

import WorkflowGraph.Registry

/-!
# The built-in nodes

What a node has to remember from one frame to the next is kept on the blackboard, under keys
made from its guid or its event, so that a node can serve any number of runs.
-/

namespace WorkflowGraph

open Json

/-- The key of the time that a waiting node has left. -/
def waitKey (guid : Guid) : String := "wait:" ++ guid ++ ":remaining"

/-- A time that is not negative; what is no number counts as none at all. -/
def atLeastZero (x : Float32) : Float32 := if 0.0 < x then x else 0.0

/-- The built-in nodes and their settings. -/
inductive BuiltinNode where
  /-- Writes a log line. -/
  | log (message : String) (severity : Severity)
  /-- Counts a time down. -/
  | wait (seconds : Float32)
  /-- Counts an event while it is active. -/
  | waitEvent (event : String)
  /-- Publishes an event. -/
  | publishEvent (event : String)
  /-- Writes entries on the blackboard. -/
  | setBlackboard (entries : List Entry)
  /-- Offers ports and does nothing else. -/
  | branch (ports : List String)
  /-- Asks for another node. -/
  | jump (target : Guid)

namespace BuiltinNode

/-- The name of the type. -/
def typeName : BuiltinNode → String
  | .log .. => "Log"
  | .wait _ => "Wait"
  | .waitEvent _ => "WaitEvent"
  | .publishEvent _ => "PublishEvent"
  | .setBlackboard _ => "SetBlackboard"
  | .branch _ => "Branch"
  | .jump _ => "Jump"

/-- The guid of the current node; without one the empty guid. -/
def here (s : Session) : Guid := s.context.currentNode.getD ""

/-- Sets the time that the current node has left. -/
def setRemaining (s : Session) (seconds : Float32) : Session :=
  s.onContext fun c => c.set (waitKey (here s)) (.seed (.float (atLeastZero seconds)))

/-- What the node does when it is entered. -/
def onEnter : BuiltinNode → Session → Session
  | .log message severity, s => s.note (.log severity (here s) message)
  | .wait seconds, s => setRemaining s seconds
  | .waitEvent event, s => ((s.onContext fun c => c.clearCount event).watch event).2
  | .publishEvent event, s => s.publish event
  | .setBlackboard entries, s => s.onContext fun c => c.writeAll entries
  | .branch _, s => s
  | .jump target, s => s.onContext fun c => c.request target

/-- What the node does in every frame. -/
def onUpdate : BuiltinNode → Session → Session
  | .wait _, s =>
    let left := (s.context.blackboard.float? (waitKey (here s))).getD 0.0
    setRemaining s (left - s.context.deltaTime)
  | _, s => s

def behaviour (n : BuiltinNode) : Behaviour where
  typeName := n.typeName
  ports := match n with
    | .branch ports => ports
    | _ => [defaultPort]
  onEnter := n.onEnter
  onUpdate := n.onUpdate

/-- How the settings of log nodes are read. -/
def logDecoder : Decoder BuiltinNode :=
  (Decoder.record "LogNode" ("", Severity.info)
    [.spare "message" .string fun d message => (message, d.2),
      .spare "level" Severity.decoder fun d severity => (d.1, severity)]).map
    fun (message, severity) => .log message severity

/-- How settings that consist of one field are read. -/
def oneField {α : Type} (shape name : String) (blank : α) (d : Decoder α)
    (make : α → BuiltinNode) : Decoder BuiltinNode :=
  (Decoder.record shape blank [.spare name d fun _ value => value]).map make

/-- A registry that knows the built-in nodes as well. -/
def register (r : Registry) : Registry :=
  let add (r : Registry) (type : String) (d : Decoder BuiltinNode) := r.addNode type d behaviour
  let r := add r "Log" logDecoder
  let r := add r "Wait" (oneField "WaitNode" "seconds" 0.0 .single .wait)
  let r := add r "WaitEvent" (oneField "WaitEventNode" "event" "" .string .waitEvent)
  let r := add r "PublishEvent" (oneField "PublishEventNode" "event" "" .string .publishEvent)
  let r := add r "SetBlackboard"
    (oneField "SetBlackboardNode" "entries" [] (.list Entry.decoder) .setBlackboard)
  let r := add r "Branch" (oneField "BranchNode" "ports" [defaultPort] (.list .string) .branch)
  add r "Jump" (oneField "JumpNode" "target" "" .string .jump)

end BuiltinNode

end WorkflowGraph

import WorkflowGraph.Blackboard
import WorkflowGraph.Hub

/-!
# Contexts

A context is what nodes and conditions of one machine work with: the blackboard and the entries
it is reset to, a mailbox for one requested node, the time that has passed, the node that is
current, and the registrations that the run has made on the bus.

A `Session` is a context together with the hub it is attached to.  Nodes act on sessions.

## How long registrations last

A registration of a run lasts until the context is reset or disposed of.  One that is made
while a node is active, and so every watch, belongs to that node and ends with it at the
latest.
-/

namespace WorkflowGraph

/-- What a host attaches to a context. -/
inductive Owner where
  | text (s : String)
  | number (n : Int64)
deriving DecidableEq, Repr

/-- A registration made through a context, and the node it belongs to, if any. -/
structure Subscription where
  token : Token
  node : Option Guid
deriving DecidableEq, Repr

/-- The state of one run. -/
structure Context where
  /-- Where the context receives watched events. -/
  address : Nat
  owner : Option Owner := none
  currentNode : Option Guid := none
  deltaTime : Float32 := 0.0
  fixedDeltaTime : Float32 := 0.0
  blackboard : Blackboard := ∅
  /-- What the blackboard is reset to. -/
  initial : List Entry := []
  /-- The node that has been asked for. -/
  requested : Option Guid := none
  subscriptions : List Subscription := []

/-- The key of the number of times that an event has fired. -/
def firedKey (event : String) : String := "evt:" ++ event ++ ":count"

namespace Context

/-- The greatest number that a count on the blackboard reaches. -/
def countLimit : Int := 2147483647

/-- How often an event has fired since its count was reset. -/
def countOf (c : Context) (event : String) : Int32 := c.blackboard.int (firedKey event) 0

/-- Counts an event a number of times; neither the number nor the count goes beyond the
limit. -/
def countEvent (c : Context) (event : String) (times : Nat) : Context :=
  let count := (c.countOf event).toInt + min (times : Int) countLimit
  { c with
    blackboard :=
      c.blackboard.write (firedKey event) (.int (Int32.ofInt (min count countLimit))) }

def clearCount (c : Context) (event : String) : Context :=
  { c with blackboard := c.blackboard.write (firedKey event) (.int 0) }

/-- Asks for a node; an earlier request that is still open is forgotten. -/
def request (c : Context) (guid : Guid) : Context := { c with requested := some guid }

def forgetRequest (c : Context) : Context := { c with requested := none }

def writeAll (c : Context) (entries : List Entry) : Context :=
  { c with blackboard := c.blackboard.writeAll entries }

def set (c : Context) (key : String) (value : Stored) : Context :=
  { c with blackboard := c.blackboard.set key value }

def describeNode (guid : Option Guid) : String :=
  Text.Outline.optional (guid.map fun g => Text.Outline.wrapped "NodeGuid" (Text.quoted g))

def describe (c : Context) : String :=
  Text.Outline.record "Context"
    [("current_node", describeNode c.currentNode),
      ("delta_time", Decimal.preciseSingle c.deltaTime),
      ("fixed_delta_time", Decimal.preciseSingle c.fixedDeltaTime),
      ("blackboard", c.blackboard.describe),
      ("requested", describeNode c.requested),
      ("subscriptions", toString c.subscriptions.length),
      ("has_owner", Text.Outline.truth c.owner.isSome)]

end Context

/-- A context and the hub it is attached to. -/
structure Session where
  context : Context
  hub : Hub

namespace Session

/-- A new context on a hub. -/
def attach (h : Hub) : Session :=
  let (address, h) := h.allocate
  ⟨{ address }, h⟩

def alone : Session := attach {}

def onContext (s : Session) (f : Context → Context) : Session := { s with context := f s.context }

def onHub (s : Session) (f : Hub → Hub) : Session := { s with hub := f s.hub }

/-! ## Registrations -/

/-- Registers a handler, remembering the node it belongs to.  Registrations that have ended are
forgotten on the occasion. -/
def register (s : Session) (event : String) (handler : Handler) (node : Option Guid) :
    Token × Session :=
  let kept := s.context.subscriptions.filter fun sub => s.hub.bus.isLive sub.token
  let (token, hub) := s.hub.subscribe event handler
  (token, ⟨{ s.context with subscriptions := kept ++ [⟨token, node⟩] }, hub⟩)

/-- Registers a handler for the rest of the run. -/
def subscribe (s : Session) (event : String) (handler : Handler) : Token × Session :=
  s.register event handler none

/-- Registers a handler for as long as the current node is active. -/
def subscribeForNode (s : Session) (event : String) (handler : Handler) : Token × Session :=
  s.register event handler s.context.currentNode

/-- Counts an event for as long as the current node is active. -/
def watch (s : Session) (event : String) : Token × Session :=
  s.subscribeForNode event (.tally s.context.address event)

/-- Ends the registrations that belong to a node, and tells how many there were. -/
def releaseNode (s : Session) (guid : Guid) : Nat × Session :=
  let (owned, others) := s.context.subscriptions.partition fun sub => sub.node == some guid
  (owned.length,
    ⟨{ s.context with subscriptions := others }, s.hub.disposeEach (owned.map (·.token))⟩)

/-- Ends every registration made through the context. -/
def release (s : Session) : Session :=
  ⟨{ s.context with subscriptions := [] },
    s.hub.disposeEach (s.context.subscriptions.map (·.token))⟩

/-- The number of registrations made through the context that have not ended. -/
def liveCount (s : Session) : Nat :=
  (s.context.subscriptions.filter fun sub => s.hub.bus.isLive sub.token).length

/-! ## Events -/

def publish (s : Session) (event : String) : Session := s.onHub fun h => h.publish event

def note (s : Session) (n : Notice) : Session := s.onHub fun h => h.note n

/-- The watched events that have been counted since the last flush. -/
def inbox (s : Session) : Inbox := s.hub.inbox s.context.address

/-- Moves the counts of watched events from the inbox to the blackboard, and tells how many
deliveries there were. -/
def flush (s : Session) : Nat × Session :=
  let fired := s.inbox.toList
  (fired.foldl (fun n (_, times) => n + times) 0,
    ⟨fired.foldl (fun c (event, times) => c.countEvent event times) s.context,
      s.hub.clearInbox s.context.address⟩)

/-! ## The life of a run -/

/-- Ends all registrations, drops requests and counted events, and rebuilds the blackboard from
the initial entries. -/
def reset (s : Session) : Session :=
  let s := s.release
  ⟨{ s.context with requested := none, blackboard := (∅ : Blackboard).writeAll s.context.initial },
    s.hub.clearInbox s.context.address⟩

/-- Ends all registrations and drops requests, counted events and the current node.  The
blackboard stays for inspection. -/
def dispose (s : Session) : Session :=
  let s := s.release
  ⟨{ s.context with requested := none, currentNode := none },
    s.hub.clearInbox s.context.address⟩

def describeToken (s : Session) (token : Token) : String :=
  Text.Outline.record "Subscription"
    [("event", Text.quoted token.event),
      ("disposed", Text.Outline.truth (!s.hub.bus.isLive token))]

end Session

end WorkflowGraph

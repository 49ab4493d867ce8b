import Std.Data.ExtTreeMap
import WorkflowGraph.Bus
import WorkflowGraph.Guid
import WorkflowGraph.Severity

/-!
# The hub

A hub is what contexts, runners and outside parties have in common: one event bus, and what its
handlers change.  Every context has an inbox on the hub, in which the events that it watches
are counted until it flushes them, and every runner has a queue of nodes that events from
outside lead to.  What nodes and handlers let the outside see goes into the journal.
-/

namespace WorkflowGraph

/-- The four occasions on which a node is called. -/
inductive Phase where
  | enter
  | update
  | fixedUpdate
  | exit
deriving DecidableEq, Repr

/-- An entry of the journal. -/
inductive Notice where
  /-- A node was called, while the given node was the current one. -/
  | callback (phase : Phase) (node : Option Guid)
  | delivery (label : String)
  | log (severity : Severity) (node : Guid) (message : String)
deriving DecidableEq, Repr

/-- What a registration on the bus of a hub does. -/
inductive Handler where
  /-- Counts the event in the inbox of a context. -/
  | tally (context : Nat) (event : String)
  /-- Puts a node into the queue of a runner. -/
  | enqueue (runner : Nat) (target : Guid)
  | notify (label : String)
deriving DecidableEq, Repr

abbrev Inbox := Std.ExtTreeMap String Nat

/-- A bus with everything its handlers change.  Contexts and runners are known by their
addresses. -/
structure Hub where
  bus : Bus Handler := {}
  inboxes : Std.ExtTreeMap Nat Inbox := ∅
  queues : Std.ExtTreeMap Nat (List Guid) := ∅
  journal : List Notice := []
  nextAddress : Nat := 0

namespace Hub

/-- The greatest count of an event in an inbox. -/
def inboxLimit : Nat := 4294967295

/-- The greatest number of nodes in a queue. -/
def queueLimit : Nat := 64

/-- A new address on the hub. -/
def allocate (h : Hub) : Nat × Hub := (h.nextAddress, { h with nextAddress := h.nextAddress + 1 })

def note (h : Hub) (n : Notice) : Hub := { h with journal := h.journal ++ [n] }

/-! ## Inboxes and queues -/

def inbox (h : Hub) (context : Nat) : Inbox := h.inboxes.getD context ∅

/-- Counts an event in the inbox of a context. -/
def tally (h : Hub) (context : Nat) (event : String) : Hub :=
  let inbox := h.inbox context
  let count := min (inbox.getD event 0 + 1) inboxLimit
  { h with inboxes := h.inboxes.insert context (inbox.insert event count) }

def clearInbox (h : Hub) (context : Nat) : Hub := { h with inboxes := h.inboxes.erase context }

/-- The nodes in the queue of a runner, oldest first. -/
def queue (h : Hub) (runner : Nat) : List Guid := h.queues.getD runner []

/-- Puts a node into the queue of a runner; the oldest one makes room for it when the queue is
full. -/
def enqueue (h : Hub) (runner : Nat) (target : Guid) : Hub :=
  let queue := h.queue runner
  let kept := if queueLimit ≤ queue.length then queue.drop 1 else queue
  { h with queues := h.queues.insert runner (kept ++ [target]) }

def clearQueue (h : Hub) (runner : Nat) : Hub := { h with queues := h.queues.erase runner }

/-! ## Events -/

def subscribe (h : Hub) (event : String) (handler : Handler) : Token × Hub :=
  let (token, bus) := h.bus.subscribe event handler
  (token, { h with bus })

def dispose (h : Hub) (token : Token) : Hub := { h with bus := h.bus.dispose token }

def disposeEach (h : Hub) (tokens : List Token) : Hub := tokens.foldl dispose h

def run (h : Hub) : Handler → Hub
  | .tally context event => h.tally context event
  | .enqueue runner target => h.enqueue runner target
  | .notify label => h.note (.delivery label)

/-- Publishes an event: runs the handlers registered for it, oldest first. -/
def publish (h : Hub) (event : String) : Hub := (h.bus.handlersOf event).foldl run h

end Hub

end WorkflowGraph

import WorkflowGraph.Behaviour

/-!
# Graphs

A graph is a list of nodes and a list of edges, both in the order in which they were
authored, with an entry node and the entries that the blackboard starts from.  Nothing keeps an
author from using a guid twice or from leading an edge nowhere; `Graph.defects` finds such
mistakes.  A guid that is used twice stands for the first node that has it.
-/

namespace WorkflowGraph

/-- A place on an editor's canvas. -/
structure Position where
  x : Float32 := 0.0
  y : Float32 := 0.0

/-- A node: its identity within a graph and what it does. -/
structure Node where
  guid : Guid
  position : Position := {}
  /-- What the node does; a node without it is a mistake of the author. -/
  behaviour : Option Behaviour

namespace Node

def movedTo (n : Node) (x y : Float32) : Node := { n with position := ⟨x, y⟩ }

def describe (n : Node) : String :=
  Text.Outline.record "NodeRecord"
    [("guid", Text.Outline.wrapped "NodeGuid" (Text.quoted n.guid)),
      ("node", Text.Outline.optional (n.behaviour.map fun b => Text.quoted b.typeName))]

end Node

/-- A way from a port of one node to another node. -/
structure Edge where
  guid : Guid
  source : Guid
  port : String
  target : Guid
  /-- What has to hold for the edge to be taken; an edge without a condition can always be
  taken. -/
  condition : Option Condition := none

namespace Edge

/-- An edge without condition from the port of the given authored name. -/
def make (guid source : Guid) (port : String) (target : Guid) : Edge :=
  { guid, source, port := portNamed port, target }

def guardedBy (e : Edge) (condition : Option Condition) : Edge := { e with condition }

/-- Whether the edge can be taken. -/
def passes (e : Edge) (s : Session) : Bool := e.condition.all fun c => c.holds s

def describe (e : Edge) : String :=
  Text.Outline.record "EdgeRecord"
    [("guid", Text.Outline.wrapped "EdgeGuid" (Text.quoted e.guid)),
      ("from", Text.Outline.wrapped "NodeGuid" (Text.quoted e.source)),
      ("from_port", Text.quoted e.port),
      ("to", Text.Outline.wrapped "NodeGuid" (Text.quoted e.target)),
      ("condition", Text.Outline.optional (e.condition.map fun c => Text.quoted c.typeName))]

end Edge

/-- A graph.  `index` gives the place of the first node with a guid. -/
structure Graph where
  nodes : List Node
  edges : List Edge
  entry : Option Guid
  defaults : List Entry
  index : Std.ExtTreeMap Guid Nat
  index_eq : ∀ guid, index[guid]? = nodes.findIdx? fun n => n.guid == guid

namespace Graph

def empty : Graph where
  nodes := []
  edges := []
  entry := none
  defaults := []
  index := ∅
  index_eq := by simp

/-! ## Building -/

/-- Adds a node. -/
def addNode (g : Graph) (n : Node) : Graph where
  nodes := g.nodes ++ [n]
  edges := g.edges
  entry := g.entry
  defaults := g.defaults
  index := g.index.insertIfNew n.guid g.nodes.length
  index_eq := by
    intro guid
    rw [Std.ExtTreeMap.getElem?_insertIfNew, List.findIdx?_append, ← g.index_eq guid]
    by_cases same : n.guid = guid
    · subst same
      by_cases known : n.guid ∈ g.index
      · simp only [known, not_true_eq_false, and_false, if_false]
        rw [Std.ExtTreeMap.mem_iff_isSome_getElem?] at known
        obtain ⟨i, found⟩ := Option.isSome_iff_exists.1 known
        simp [found]
      · simp [known]
    · have differ : ¬ compare n.guid guid = .eq := by simpa using same
      simp only [differ, false_and, if_false]
      simp [List.findIdx?_cons, same]

def addEdge (g : Graph) (e : Edge) : Graph := { g with edges := g.edges ++ [e] }

/-- Adds an edge from the port of the given authored name, with a guid generated from the given
source of guids. -/
def connect (g : Graph) (guids : Nat) (source : Guid) (port : String) (target : Guid)
    (condition : Option Condition) : Graph :=
  let guid := Guid.generated guids g.edges.length
  g.addEdge ((Edge.make guid source port target).guardedBy condition)

def setEntry (g : Graph) (guid : Guid) : Graph := { g with entry := some guid }

/-- Adds an entry that the blackboard starts from. -/
def addDefault (g : Graph) (e : Entry) : Graph := { g with defaults := g.defaults ++ [e] }

/-- The graph with the given parts. -/
def assemble (nodes : List Node) (edges : List Edge) (entry : Option Guid)
    (defaults : List Entry) : Graph :=
  { nodes.foldl addNode empty with edges, entry, defaults }

/-! ## Looking things up -/

/-- Whether a node has the guid. -/
def contains (g : Graph) (guid : Guid) : Bool := g.index.contains guid

/-- The node with a guid. -/
def node? (g : Graph) (guid : Guid) : Option Node := g.index[guid]?.bind (g.nodes[·]?)

/-- The behaviour of the node with a guid. -/
def behaviour? (g : Graph) (guid : Guid) : Option Behaviour :=
  (g.node? guid).bind (·.behaviour)

def edge? (g : Graph) (guid : Guid) : Option Edge := g.edges.find? fun e => e.guid == guid

/-- The edges that leave a node, in the order in which they were authored. -/
def outgoing (g : Graph) (guid : Guid) : List Edge := g.edges.filter fun e => e.source == guid

/-- The node that runs start from: the entry node if there is one, and the first node
otherwise. -/
def resolvedEntry (g : Graph) : Option Guid := g.entry <|> (g.nodes.head?.map (·.guid))

/-- The node with a guid is the first one that has it. -/
theorem node?_eq_find? (g : Graph) (guid : Guid) :
    g.node? guid = g.nodes.find? fun n => n.guid == guid := by
  rw [node?, g.index_eq, List.find?_eq_bind_findIdx?_getElem?]

/-- A guid is known if some node has it. -/
theorem contains_iff (g : Graph) (guid : Guid) :
    g.contains guid = true ↔ ∃ n ∈ g.nodes, n.guid = guid := by
  rw [contains, Std.ExtTreeMap.contains_iff_mem, Std.ExtTreeMap.mem_iff_isSome_getElem?,
    g.index_eq]
  simp

end Graph

end WorkflowGraph

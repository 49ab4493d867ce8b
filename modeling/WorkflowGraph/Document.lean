import WorkflowGraph.Graph
import WorkflowGraph.Seed.Format

/-!
# Graph documents

The authored form of a graph.  A node or a condition is given by the name of its type and data
for that type; a registry turns such a `Spec` into a behaviour or a condition.
-/

namespace WorkflowGraph

open Json

/-- A type and the data for it. -/
structure Spec where
  type : String
  data : Json := .null

namespace Spec

/-- How specs are read; `shape` is what messages call them. -/
def decoder (shape : String) : Decoder Spec :=
  Decoder.record shape ⟨"", .null⟩
    [.needed "type" .string fun s type => { s with type },
      .spare "data" .any fun s data => { s with data }]

def ofNode : Decoder Spec := decoder "NodeSpec"

def ofCondition : Decoder Spec := decoder "ConditionSpec"

/-- A spec as it is written: without data if it has none. -/
def toJson (s : Spec) : Json :=
  match s.data with
  | .null => .object [("type", .string s.type)]
  | data => .object [("type", .string s.type), ("data", data)]

end Spec

/-- A node as it is authored. -/
structure AuthoredNode where
  guid : Guid
  position : Position := {}
  /-- What the node does; a node without it is a mistake that is found later. -/
  node : Option Spec := none

/-- An edge as it is authored. -/
structure AuthoredEdge where
  guid : Guid
  source : Guid
  /-- The port; the empty one stands for the default port. -/
  port : String := ""
  target : Guid
  condition : Option Spec := none

/-- A graph as it is authored. -/
structure Document where
  /-- The entry node; without it runs start at the first node. -/
  entry : Option Guid := none
  nodes : List AuthoredNode := []
  edges : List AuthoredEdge := []
  /-- What the blackboard starts from. -/
  defaults : List Entry := []

namespace Position

def decoder : Decoder Position :=
  Decoder.record "Position" {}
    [.needed "x" .single fun p x => { p with x },
      .needed "y" .single fun p y => { p with y }]

def toJson (p : Position) : Json :=
  .object [("x", .number (.single p.x)), ("y", .number (.single p.y))]

end Position

namespace AuthoredNode

def decoder : Decoder AuthoredNode :=
  Decoder.record "NodeDocument" { guid := "" }
    [.needed "guid" .string fun d guid => { d with guid },
      .spare "position" Position.decoder fun d position => { d with position },
      .spare "node" (.optional Spec.ofNode) fun d node => { d with node }]

def toJson (d : AuthoredNode) : Json :=
  .object
    [("guid", .string d.guid), ("position", d.position.toJson),
      ("node", (d.node.map Spec.toJson).getD .null)]

end AuthoredNode

namespace AuthoredEdge

def decoder : Decoder AuthoredEdge :=
  Decoder.record "EdgeDocument" { guid := "", source := "", target := "" }
    [.needed "guid" .string fun d guid => { d with guid },
      .needed "from_node_guid" .string fun d source => { d with source },
      .spare "from_port_name" .string fun d port => { d with port },
      .needed "to_node_guid" .string fun d target => { d with target },
      .spare "condition" (.optional Spec.ofCondition) fun d condition => { d with condition }]

/-- An edge as it is written: without a condition if it has none. -/
def toJson (d : AuthoredEdge) : Json :=
  .object
    ([("guid", .string d.guid), ("from_node_guid", .string d.source),
        ("from_port_name", .string d.port), ("to_node_guid", .string d.target)] ++
      match d.condition with
      | some condition => [("condition", condition.toJson)]
      | none => [])

end AuthoredEdge

namespace Document

def decoder : Decoder Document :=
  Decoder.record "GraphDocument" {}
    [.spare "entry_node_guid" (.optional .string) fun d entry => { d with entry },
      .spare "nodes" (.list AuthoredNode.decoder) fun d nodes => { d with nodes },
      .spare "edges" (.list AuthoredEdge.decoder) fun d edges => { d with edges },
      .spare "blackboard" (.list Entry.decoder) fun d defaults => { d with defaults }]

/-- A document as it is written: without an entry if it has none. -/
def toJson (d : Document) : Json :=
  .object
    ((match d.entry with
      | some entry => [("entry_node_guid", .string entry)]
      | none => []) ++
      [("nodes", .array (d.nodes.map AuthoredNode.toJson)),
        ("edges", .array (d.edges.map AuthoredEdge.toJson)),
        ("blackboard", .array (d.defaults.map Entry.toJson))])

def ofText (text : String) : Except Fault Document := decoder.fromText text

def toText (d : Document) : String := d.toJson.pretty

end Document

end WorkflowGraph

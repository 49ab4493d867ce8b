import WorkflowGraph.Graph

/-!
# Defects of graphs

A graph can be run if it has a node, its guids are not empty and not used twice, every node
has a behaviour, and edges and entry name nodes of the graph.  `Graph.defects` lists every
violation: those of the nodes in their order, then those of the edges in their order, then that
of the entry.
-/

namespace WorkflowGraph

/-- A reason why a graph cannot be run.  Positions are those in the list of nodes or edges. -/
inductive Defect where
  | noNodes
  | emptyNodeGuid (position : Nat)
  | duplicateNodeGuid (guid : Guid)
  | missingBehaviour (position : Nat) (guid : Guid)
  | emptyEdgeGuid (position : Nat)
  | duplicateEdgeGuid (guid : Guid)
  | unknownSource (edge node : Guid)
  | unknownTarget (edge node : Guid)
  | unknownEntry (guid : Guid)
deriving DecidableEq, Repr

/-- The wording of a defect. -/
def Defect.message : Defect → String
  | .noNodes => "graph has no nodes"
  | .emptyNodeGuid position => "node record #" ++ toString position ++ " has an empty guid"
  | .duplicateNodeGuid guid => "duplicate node guid '" ++ guid ++ "'"
  | .missingBehaviour position guid =>
    "node record #" ++ toString position ++ " ('" ++ guid ++ "') has no node instance"
  | .emptyEdgeGuid position => "edge record #" ++ toString position ++ " has an empty guid"
  | .duplicateEdgeGuid guid => "duplicate edge guid '" ++ guid ++ "'"
  | .unknownSource edge node => "edge '" ++ edge ++ "' starts at missing node '" ++ node ++ "'"
  | .unknownTarget edge node => "edge '" ++ edge ++ "' points to missing node '" ++ node ++ "'"
  | .unknownEntry guid => "entry node '" ++ guid ++ "' does not exist"

namespace Graph

/-- The defect of a guid at a position after the given ones: that it is empty, or else that it
occurs among them. -/
def guidDefect (empty : Nat → Defect) (duplicate : Guid → Defect) (before : List Guid)
    (guid : Guid) : List Defect :=
  if guid.isEmpty then [empty before.length]
  else if before.contains guid then [duplicate guid]
  else []

/-- The defects of nodes that come after nodes with the given guids. -/
def nodeDefects : List Guid → List Node → List Defect
  | _, [] => []
  | before, n :: rest =>
    guidDefect .emptyNodeGuid .duplicateNodeGuid before n.guid ++
      (if n.behaviour.isNone then [.missingBehaviour before.length n.guid] else []) ++
      nodeDefects (before ++ [n.guid]) rest

/-- The defects of edges that come after edges with the given guids. -/
def edgeDefects (g : Graph) : List Guid → List Edge → List Defect
  | _, [] => []
  | before, e :: rest =>
    guidDefect .emptyEdgeGuid .duplicateEdgeGuid before e.guid ++
      (if g.contains e.source then [] else [.unknownSource e.guid e.source]) ++
      (if g.contains e.target then [] else [.unknownTarget e.guid e.target]) ++
      g.edgeDefects (before ++ [e.guid]) rest

/-- The defect of the entry. -/
def entryDefects (g : Graph) : List Defect :=
  match g.entry with
  | some guid => if g.contains guid then [] else [.unknownEntry guid]
  | none => []

/-- Every reason why the graph cannot be run. -/
def defects (g : Graph) : List Defect :=
  (if g.nodes.isEmpty then [.noNodes] else []) ++ nodeDefects [] g.nodes ++
    g.edgeDefects [] g.edges ++ g.entryDefects

end Graph

end WorkflowGraph

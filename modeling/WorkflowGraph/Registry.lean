import WorkflowGraph.Document

/-!
# Registries

A registry knows, by the names of their types, how nodes and conditions are made from data.
With it a document becomes a graph.  Mistakes in the structure of a graph are left for
`Graph.defects`; here only unknown types and data that does not fit its type count.

A maker is handed the registry, for nodes and conditions that are made of others.  What it does
with it is a `Recipe`: a tree of questions to the registry, each with what is done on its answer.
`Registry.follow` answers them, with the registry's own makers, so that a type may be made by any
other one.  A type that keeps asking for itself is never made.  Then following the recipe has no
result, as the program does not return.
-/

namespace WorkflowGraph

open Json

/-- Why a document could not be made into a graph. -/
inductive BuildError where
  /-- The text does not hold a document. -/
  | unparsed (fault : Fault)
  | unknownNode (guid : Guid) (type : String)
  | unknownCondition (type : String)
  /-- Data does not fit its type. -/
  | invalidData (type : String) (cause : Mismatch)
  /-- The condition of an edge could not be built. -/
  | edge (guid : Guid) (cause : BuildError)
  /-- Nothing that anybody is told: this is in the place of the result of a build that never
  ends. -/
  | endless (type : String)

def BuildError.message : BuildError → String
  | .unparsed .malformed => "failed to parse graph document: malformed text"
  | .unparsed (.mismatch cause) => "failed to parse graph document: " ++ cause.message
  | .unknownNode guid type => "node '" ++ guid ++ "' has unknown type '" ++ type ++ "'"
  | .unknownCondition type => "unknown condition type '" ++ type ++ "'"
  | .invalidData type cause => "invalid data for '" ++ type ++ "': " ++ cause.message
  | .edge guid cause => "edge '" ++ guid ++ "': " ++ cause.message
  | .endless type => "building '" ++ type ++ "' does not end"

/-! ## Recipes -/

/-- What a maker does: it comes to a result, or asks the registry for something and goes on with
the answer. -/
inductive Recipe (α : Type) where
  | done (result : Except BuildError α)
  /-- Has a condition built. -/
  | condition (s : Spec) (next : Except BuildError Condition → Recipe α)
  /-- Has the behaviour of a node built; the guid is there for messages. -/
  | behaviour (guid : Guid) (s : Spec) (next : Except BuildError Behaviour → Recipe α)
  /-- Looks up the types of nodes and those of conditions. -/
  | types (next : List String → List String → Recipe α)

namespace Recipe

/-- Goes on with the result of a recipe, unless it is an error. -/
def bind {α β : Type} : Recipe α → (α → Recipe β) → Recipe β
  | .done (.ok a), f => f a
  | .done (.error e), _ => .done (.error e)
  | .condition s next, f => .condition s fun answer => (next answer).bind f
  | .behaviour guid s next, f => .behaviour guid s fun answer => (next answer).bind f
  | .types next, f => .types fun nodes conditions => (next nodes conditions).bind f

instance : Monad Recipe where
  pure a := .done (.ok a)
  bind := bind

instance : MonadLift (Except BuildError) Recipe := ⟨.done⟩

/-- The condition of a spec. -/
def build (s : Spec) : Recipe Condition := .condition s .done

/-- The conditions of some specs, up to the first that cannot be built. -/
def buildAll : List Spec → Recipe (List Condition)
  | [] => pure []
  | s :: rest => do
    let c ← build s
    pure (c :: (← buildAll rest))

end Recipe

/-- How nodes of a type are made from data. -/
abbrev NodeMaker := Json → Recipe Behaviour

/-- How conditions of a type are made from data. -/
abbrev ConditionMaker := Json → Recipe Condition

/-- Makers by the names of their types. -/
structure Registry where
  nodes : Std.ExtTreeMap String NodeMaker := ∅
  conditions : Std.ExtTreeMap String ConditionMaker := ∅

namespace Registry

/-- Data read for a type; no data counts as an empty object. -/
def decodeData {α : Type} (type : String) (d : Decoder α) (data : Json) : Except BuildError α :=
  let data := match data with
    | .null => .object []
    | data => data
  match d.json data with
  | .ok value => .ok value
  | .error cause => .error (.invalidData type cause)

/-! ## Registering types -/

/-- Registers a type of nodes; a maker with the same name is replaced. -/
def addNodeMaker (r : Registry) (type : String) (maker : NodeMaker) : Registry :=
  { r with nodes := r.nodes.insert type maker }

/-- Registers a type of conditions; a maker with the same name is replaced. -/
def addConditionMaker (r : Registry) (type : String) (maker : ConditionMaker) : Registry :=
  { r with conditions := r.conditions.insert type maker }

/-- Registers a type of nodes that are read from their data. -/
def addNode {α : Type} (r : Registry) (type : String) (d : Decoder α) (make : α → Behaviour) :
    Registry :=
  r.addNodeMaker type fun data => .done ((decodeData type d data).map make)

def addCondition {α : Type} (r : Registry) (type : String) (d : Decoder α)
    (make : α → Condition) : Registry :=
  r.addConditionMaker type fun data => .done ((decodeData type d data).map make)

/-- The registry that knows the empty node only. -/
def base : Registry := ({} : Registry).addNodeMaker "Empty" fun _ => pure Behaviour.empty

def hasNode (r : Registry) (type : String) : Bool := r.nodes.contains type

def hasCondition (r : Registry) (type : String) : Bool := r.conditions.contains type

/-- The types of nodes in increasing order of their names. -/
def nodeTypes (r : Registry) : List String := r.nodes.keys

/-- The types of conditions in increasing order of their names. -/
def conditionTypes (r : Registry) : List String := r.conditions.keys

def describe (r : Registry) : String :=
  Text.Outline.record "Registry"
    [("nodes", Text.Outline.list (r.nodeTypes.map Text.quoted)),
      ("conditions", Text.Outline.list (r.conditionTypes.map Text.quoted))]

/-! ## Building -/

/-- What a recipe comes to; nothing if it never ends. -/
def follow {α : Type} (r : Registry) (x : Recipe α) : Option (Except BuildError α) :=
  -- Whatever is asked is answered by the registry that the question came from.
  let again {β : Type} (y : Recipe β) : Option (Except BuildError β) := by
    apply follow
    · exact r
    · exact y
  match x with
  | .done result => some result
  | .condition s next =>
    match r.conditions[s.type]? with
    | none => again (next (.error (.unknownCondition s.type)))
    | some maker => do again (next (← again (maker s.data)))
  | .behaviour guid s next =>
    match r.nodes[s.type]? with
    | none => again (next (.error (.unknownNode guid s.type)))
    | some maker => do again (next (← again (maker s.data)))
  | .types next => again (next r.nodeTypes r.conditionTypes)
partial_fixpoint

/-- What building a condition comes to, if it ends. -/
def condition? (r : Registry) (s : Spec) : Option (Except BuildError Condition) :=
  r.follow (.condition s .done)

/-- What building the behaviour of a node comes to, if it ends. -/
def behaviour? (r : Registry) (guid : Guid) (s : Spec) : Option (Except BuildError Behaviour) :=
  r.follow (.behaviour guid s .done)

/-- The result of building something of a type. -/
def settle {α : Type} (type : String) (outcome : Option (Except BuildError α)) :
    Except BuildError α :=
  outcome.getD (.error (.endless type))

def makeCondition (r : Registry) (s : Spec) : Except BuildError Condition :=
  settle s.type (r.condition? s)

/-- Builds a node; its guid is there for messages. -/
def makeBehaviour (r : Registry) (guid : Guid) (s : Spec) : Except BuildError Behaviour :=
  settle s.type (r.behaviour? guid s)

/-- Builds something that may be absent. -/
def whenGiven {α : Type} (build : Spec → Except BuildError α) :
    Option Spec → Except BuildError (Option α)
  | none => .ok none
  | some s => (build s).map some

def makeNode (r : Registry) (d : AuthoredNode) : Except BuildError Node :=
  (whenGiven (r.makeBehaviour d.guid) d.node).map fun behaviour =>
    { guid := d.guid, position := d.position, behaviour }

def makeEdge (r : Registry) (d : AuthoredEdge) : Except BuildError Edge :=
  match whenGiven r.makeCondition d.condition with
  | .ok condition => .ok ((Edge.make d.guid d.source d.port d.target).guardedBy condition)
  | .error cause => .error (.edge d.guid cause)

/-- The graph of a document.  The first node that cannot be built decides, and if there is none
the first edge. -/
def graphOf (r : Registry) (d : Document) : Except BuildError Graph := do
  let nodes ← d.nodes.mapM r.makeNode
  let edges ← d.edges.mapM r.makeEdge
  pure (Graph.assemble nodes edges d.entry d.defaults)

def load (r : Registry) (text : String) : Except BuildError Graph :=
  match Document.ofText text with
  | .ok d => r.graphOf d
  | .error fault => .error (.unparsed fault)

end Registry

end WorkflowGraph

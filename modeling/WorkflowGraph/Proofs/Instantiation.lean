import WorkflowGraph.Graph.Defect
import WorkflowGraph.Proofs.Conduct
import WorkflowGraph.Proofs.Reading

/-!
# From documents to graphs

A registry makes the nodes and the edges of a document one by one and gives up at the first one
whose type or data it cannot use.  The main result `Registry.graphOf_faithful` says which documents
become graphs, what the graph then has of the document, and which error it is otherwise.  It speaks
of specs only through the makers that are registered for their types (`Registry.MakesCondition` and
`Registry.MakesBehaviour`), not through the functions that build them.

That an error of a condition is wrapped once, however deep in a combination it comes from, needs a
premise on the types that a host has registered: a maker returns no error of an edge unless it has
been given one (`PlainMaker`).  The built-in makers are of this kind, and then so is all that
recipes come to (`Yields.plain`).

What is wrong with the structure of a document is never an error.  It is left for the inspection of
the graph, which finds the same whatever the registry has made of the nodes (`Document.outline`).
-/

namespace WorkflowGraph

open Json

/-! ## Errors that are not about edges -/

/-- The error is not one of an edge. -/
def BuildError.Plain : BuildError → Prop
  | .edge .. => False
  | _ => True

/-- The result is not an error of an edge. -/
def PlainResult {α : Type} (x : Except BuildError α) : Prop := ∀ e, x = .error e → e.Plain

/-- If the answers to its questions are no errors of edges, neither is what the recipe comes to. -/
def Recipe.Plain {α : Type} : Recipe α → Prop
  | .done result => PlainResult result
  | .condition _ next => ∀ answer, PlainResult answer → (next answer).Plain
  | .behaviour _ _ next => ∀ answer, PlainResult answer → (next answer).Plain
  | .types next => ∀ nodes conditions, (next nodes conditions).Plain

/-- The recipes of a maker return no errors of edges of their own. -/
def PlainMaker {α : Type} (maker : Json → Recipe α) : Prop := ∀ data, (maker data).Plain

namespace Registry

/-- A registry of the built-in types and of any further ones whose makers do not return errors of
edges themselves. -/
inductive Stocked : Registry → Prop
  | base : Stocked base
  | builtins {r : Registry} (stocked : Stocked r) : Stocked r.withBuiltins
  | nodes {r : Registry} (stocked : Stocked r) (type : String) {maker : NodeMaker}
    (plain : PlainMaker maker) : Stocked (r.addNodeMaker type maker)
  | conditions {r : Registry} (stocked : Stocked r) (type : String) {maker : ConditionMaker}
    (plain : PlainMaker maker) : Stocked (r.addConditionMaker type maker)

end Registry

section Results

variable {α β : Type}

lemma plainResult_ok (a : α) : PlainResult (.ok a : Except BuildError α) := nofun

lemma PlainResult.map {x : Except BuildError α} (hx : PlainResult x) (f : α → β) :
    PlainResult (x.map f) :=
  fun e he => hx e (map_eq_error he)

lemma plainResult_decodeData (type : String) (d : Decoder α) (data : Json) :
    PlainResult (Registry.decodeData type d data) := by
  intro e he
  obtain ⟨cause, rfl⟩ := Spec.error_of_decodeData he
  trivial

namespace Recipe

lemma Plain.bind {x : Recipe α} {f : α → Recipe β} (hx : x.Plain) (hf : ∀ a, (f a).Plain) :
    (x >>= f).Plain := by
  induction x with
  | done result =>
    cases result with
    | ok a => exact hf a
    | error e =>
      intro e' he
      cases he
      exact hx e rfl
  | condition s next ih | behaviour guid s next ih => exact fun answer h => ih answer (hx answer h)
  | types next ih => exact fun nodes conditions => ih nodes conditions (hx nodes conditions)

lemma plain_build (s : Spec) : (build s).Plain := fun _ h => h

lemma plain_buildAll (parts : List Spec) : (buildAll parts).Plain := by
  induction parts with
  | nil => exact plainResult_ok _
  | cons s rest ih => exact (plain_build s).bind fun _ => ih.bind fun _ => plainResult_ok _

end Recipe

end Results

namespace Registry

/-- No maker of the registry returns errors of edges of its own. -/
structure PlainMakers (r : Registry) : Prop where
  nodes : ∀ (type : String) maker, r.nodes[type]? = some maker → PlainMaker maker
  conditions : ∀ (type : String) maker, r.conditions[type]? = some maker → PlainMaker maker

namespace PlainMakers

variable {r : Registry}

lemma addNodeMaker (plain : PlainMakers r) (type : String) {maker : NodeMaker}
    (hmaker : PlainMaker maker) : PlainMakers (r.addNodeMaker type maker) := by
  refine ⟨fun other found hfound => ?_, plain.conditions⟩
  rw [Registry.addNodeMaker, Std.ExtTreeMap.getElem?_insert] at hfound
  split at hfound
  · exact Option.some.inj hfound ▸ hmaker
  · exact plain.nodes other found hfound

lemma addConditionMaker (plain : PlainMakers r) (type : String) {maker : ConditionMaker}
    (hmaker : PlainMaker maker) : PlainMakers (r.addConditionMaker type maker) := by
  refine ⟨plain.nodes, fun other found hfound => ?_⟩
  rw [Registry.addConditionMaker, Std.ExtTreeMap.getElem?_insert] at hfound
  split at hfound
  · exact Option.some.inj hfound ▸ hmaker
  · exact plain.conditions other found hfound

lemma addNode {α : Type} (plain : PlainMakers r) (type : String) (d : Decoder α)
    (make : α → Behaviour) : PlainMakers (r.addNode type d make) :=
  plain.addNodeMaker type fun data => (plainResult_decodeData type d data).map make

lemma addCondition {α : Type} (plain : PlainMakers r) (type : String) (d : Decoder α)
    (make : α → Condition) : PlainMakers (r.addCondition type d make) :=
  plain.addConditionMaker type fun data => (plainResult_decodeData type d data).map make

lemma base : PlainMakers base :=
  addNodeMaker ⟨by simp, by simp⟩ "Empty" fun _ => plainResult_ok Behaviour.empty

lemma plainMaker_not : PlainMaker Combination.notMaker := fun data =>
  Recipe.Plain.bind (x := .done _) (plainResult_decodeData "Not" _ data) fun inner =>
    (Recipe.plain_build inner).bind fun _ => plainResult_ok _

lemma plainMaker_list (type : String) (make : List Condition → Combination) :
    PlainMaker (Combination.listMaker type make) := fun data =>
  Recipe.Plain.bind (x := .done _) (plainResult_decodeData type _ data) fun parts =>
    (Recipe.plain_buildAll parts).bind fun _ => plainResult_ok _

lemma withBuiltins (plain : PlainMakers r) : PlainMakers r.withBuiltins := by
  have hnodes : PlainMakers (BuiltinNode.register r) := by
    unfold BuiltinNode.register
    iterate 7 apply addNode
    exact plain
  unfold Registry.withBuiltins registerConditions
  iterate 2 refine addConditionMaker ?_ _ (plainMaker_list _ _)
  refine addConditionMaker ?_ _ plainMaker_not
  iterate 3 apply addCondition
  exact hnodes

/-- The answers that the registry gives to a recipe are results of recipes of its own makers, and so
no errors of edges either. -/
lemma yields (plain : PlainMakers r) {α : Type} {x : Recipe α} {result : Except BuildError α}
    (h : r.Yields x result) (hx : x.Plain) : PlainResult result := by
  induction h with
  | done result => exact hx
  | condition known _ _ hasked hrest =>
    exact hrest (hx _ (hasked (plain.conditions _ _ known _)))
  | unknownCondition _ _ hrest =>
    refine hrest (hx _ fun e he => ?_)
    cases he
    trivial
  | behaviour known _ _ hasked hrest =>
    exact hrest (hx _ (hasked (plain.nodes _ _ known _)))
  | unknownNode _ _ hrest =>
    refine hrest (hx _ fun e he => ?_)
    cases he
    trivial
  | types _ hrest => exact hrest (hx _ _)

lemma makesCondition (plain : PlainMakers r) {s : Spec} {result : Except BuildError Condition}
    (h : r.MakesCondition s result) : PlainResult result :=
  plain.yields (.of_makesCondition h (.done result)) (Recipe.plain_build s)

lemma makesBehaviour (plain : PlainMakers r) {guid : Guid} {s : Spec}
    {result : Except BuildError Behaviour} (h : r.MakesBehaviour guid s result) :
    PlainResult result :=
  have hyields : r.Yields (.behaviour guid s .done) result := .of_makesBehaviour h (.done result)
  plain.yields hyields fun _ h => h

end PlainMakers

lemma Stocked.plainMakers {r : Registry} (stocked : r.Stocked) : r.PlainMakers := by
  induction stocked with
  | base => exact .base
  | builtins _ ih => exact ih.withBuiltins
  | nodes _ type plain ih => exact ih.addNodeMaker type plain
  | conditions _ type plain ih => exact ih.addConditionMaker type plain

/-! ## What a document becomes -/

variable (r : Registry)

/-- The behaviour of the node can be made, if it has a spec. -/
def BuildsNode (a : AuthoredNode) : Prop :=
  ∀ s, a.node = some s → ∃ b, r.MakesBehaviour a.guid s (.ok b)

/-- The condition of the edge can be made, if it has a spec. -/
def BuildsEdge (a : AuthoredEdge) : Prop :=
  ∀ s, a.condition = some s → ∃ c, r.MakesCondition s (.ok c)

/-- Every spec of the document can be made into something. -/
structure Builds (d : Document) : Prop where
  nodes : ∀ a ∈ d.nodes, r.BuildsNode a
  edges : ∀ a ∈ d.edges, r.BuildsEdge a

/-- The node is what has been authored. -/
structure RealizesNode (a : AuthoredNode) (n : Node) : Prop where
  guid : n.guid = a.guid
  position : n.position = a.position
  behaviour : Option.Rel (fun s b => r.MakesBehaviour a.guid s (.ok b)) a.node n.behaviour

/-- The edge is what has been authored, with the default port for an empty one. -/
structure RealizesEdge (a : AuthoredEdge) (e : Edge) : Prop where
  guid : e.guid = a.guid
  source : e.source = a.source
  port : e.port = if a.port = "" then defaultPort else a.port
  target : e.target = a.target
  condition : Option.Rel (fun s c => r.MakesCondition s (.ok c)) a.condition e.condition

/-- The graph is what has been authored. -/
structure Realizes (d : Document) (g : Graph) : Prop where
  nodes : List.Forall₂ r.RealizesNode d.nodes g.nodes
  edges : List.Forall₂ r.RealizesEdge d.edges g.edges
  entry : g.entry = d.entry
  defaults : g.defaults = d.defaults

/-- Why a spec of a type cannot be made into something: what it comes to is an error, and not one of
an edge, or it comes to nothing at all. -/
inductive Fails {α : Type} (makes : Except BuildError α → Prop) (type : String) : BuildError → Prop
  | error {e : BuildError} (fails : makes (.error e)) (plain : e.Plain) : Fails makes type e
  | endless (never : ∀ result, ¬ makes result) : Fails makes type (.endless type)

/-- Why a document cannot be made into a graph: because of its first node that cannot be built or,
if all nodes can be built, because of its first edge. -/
inductive Refuses (d : Document) : BuildError → Prop
  | node {before after : List AuthoredNode} {a : AuthoredNode} {s : Spec} {e : BuildError}
    (place : d.nodes = before ++ a :: after) (earlier : ∀ b ∈ before, r.BuildsNode b)
    (given : a.node = some s) (fails : Fails (r.MakesBehaviour a.guid s) s.type e) : Refuses d e
  | edge {before after : List AuthoredEdge} {a : AuthoredEdge} {s : Spec} {cause : BuildError}
    (nodes : ∀ b ∈ d.nodes, r.BuildsNode b) (place : d.edges = before ++ a :: after)
    (earlier : ∀ b ∈ before, r.BuildsEdge b) (given : a.condition = some s)
    (fails : Fails (r.MakesCondition s) s.type cause) : Refuses d (.edge a.guid cause)

/-! ## One node or edge -/

section Parts

variable {α : Type} {build : Spec → Except BuildError α} {spec : Option Spec}

lemma rel_of_whenGiven {R : Spec → α → Prop} (made : ∀ s a, build s = .ok a → R s a) {a : Option α}
    (h : whenGiven build spec = .ok a) : Option.Rel R spec a := by
  cases spec with
  | none => exact Except.ok.inj h ▸ .none
  | some s =>
    obtain ⟨b, hb, rfl⟩ := map_eq_ok h
    exact .some (made s b hb)

lemma error_of_whenGiven {e : BuildError} (h : whenGiven build spec = .error e) :
    ∃ s, spec = some s ∧ build s = .error e := by
  cases spec with
  | none => cases h
  | some s => exact ⟨s, rfl, map_eq_error h⟩

lemma exists_of_rel {R : Spec → α → Prop} {s : Spec} {a : Option α}
    (h : Option.Rel R (some s) a) : ∃ b, R s b := by
  cases h with
  | some hb => exact ⟨_, hb⟩

lemma isNone_eq_of_rel {R : Spec → α → Prop} {a : Option α} (h : Option.Rel R spec a) :
    spec.isNone = a.isNone := by
  cases h <;> rfl

lemma fails_of_settle {type : String} {outcome : Option (Except BuildError α)}
    {makes : Except BuildError α → Prop} (iff : ∀ result, outcome = some result ↔ makes result)
    (plain : ∀ result, makes result → PlainResult result) {e : BuildError}
    (h : settle type outcome = .error e) : Fails makes type e := by
  cases outcome with
  | none =>
    cases h
    exact .endless fun result hresult => nomatch (iff result).mpr hresult
  | some result =>
    obtain rfl : result = .error e := h
    have hmakes := (iff _).mp rfl
    exact .error hmakes (plain _ hmakes e rfl)

end Parts

variable {r}

lemma realizesNode_of_makeNode {a : AuthoredNode} {n : Node} (h : r.makeNode a = .ok n) :
    r.RealizesNode a n := by
  obtain ⟨behaviour, hmade, rfl⟩ := map_eq_ok h
  exact ⟨rfl, rfl, rel_of_whenGiven (fun _ _ => makeBehaviour_eq_ok_iff.mp) hmade⟩

lemma realizesEdge_of_makeEdge {a : AuthoredEdge} {e : Edge} (h : r.makeEdge a = .ok e) :
    r.RealizesEdge a e := by
  unfold makeEdge at h
  split at h
  · next condition hmade =>
    obtain rfl := Except.ok.inj h
    exact ⟨rfl, rfl, by simp [Edge.guardedBy, Edge.make, portNamed], rfl,
      rel_of_whenGiven (fun _ _ => makeCondition_eq_ok_iff.mp) hmade⟩
  · cases h

lemma fails_of_makeNode (plain : r.PlainMakers) {a : AuthoredNode} {e : BuildError}
    (h : r.makeNode a = .error e) :
    ∃ s, a.node = some s ∧ Fails (r.MakesBehaviour a.guid s) s.type e := by
  obtain ⟨s, hs, hfails⟩ := error_of_whenGiven (map_eq_error h)
  exact ⟨s, hs, fails_of_settle (fun _ => behaviour?_eq_some_iff)
    (fun _ => plain.makesBehaviour) hfails⟩

lemma fails_of_makeEdge (plain : r.PlainMakers) {a : AuthoredEdge} {e : BuildError}
    (h : r.makeEdge a = .error e) :
    ∃ s cause, a.condition = some s ∧ Fails (r.MakesCondition s) s.type cause ∧
      e = .edge a.guid cause := by
  unfold makeEdge at h
  split at h
  · cases h
  · next cause hmade =>
    obtain ⟨s, hs, hfails⟩ := error_of_whenGiven hmade
    exact ⟨s, cause, hs, fails_of_settle (fun _ => condition?_eq_some_iff)
      (fun _ => plain.makesCondition) hfails, (Except.error.inj h).symm⟩

lemma RealizesNode.builds {a : AuthoredNode} {n : Node} (realizes : r.RealizesNode a n) :
    r.BuildsNode a :=
  fun _ hs => exists_of_rel (hs ▸ realizes.behaviour)

lemma RealizesEdge.builds {a : AuthoredEdge} {e : Edge} (realizes : r.RealizesEdge a e) :
    r.BuildsEdge a :=
  fun _ hs => exists_of_rel (hs ▸ realizes.condition)

/-! ## The whole document -/

variable {d : Document}

lemma realizes_of_graphOf {g : Graph} (h : r.graphOf d = .ok g) : r.Realizes d g := by
  obtain ⟨nodes, hnodes, h⟩ := bind_eq_ok h
  obtain ⟨edges, hedges, h⟩ := bind_eq_ok h
  obtain rfl := Except.ok.inj h
  refine ⟨?_, ?_, rfl, rfl⟩
  · rw [Graph.nodes_assemble]
    exact (mapM_eq_ok_iff.mp hnodes).imp fun _ _ => realizesNode_of_makeNode
  · exact (mapM_eq_ok_iff.mp hedges).imp fun _ _ => realizesEdge_of_makeEdge

lemma refuses_of_graphOf (plain : r.PlainMakers) {e : BuildError} (h : r.graphOf d = .error e) :
    r.Refuses d e := by
  rcases bind_eq_error h with hnodes | ⟨nodes, hnodes, h⟩
  · obtain ⟨before, a, after, place, hbefore, hfails⟩ := first_failure_of_mapM hnodes
    obtain ⟨s, hs, hs'⟩ := fails_of_makeNode plain hfails
    refine .node place (fun b hb => ?_) hs hs'
    obtain ⟨n, hn⟩ := hbefore b hb
    exact (realizesNode_of_makeNode hn).builds
  -- Edges are only made when all nodes have been, so that a failing edge follows nothing but nodes.
  · rcases bind_eq_error h with hedges | ⟨edges, -, h⟩
    · obtain ⟨before, a, after, place, hbefore, hfails⟩ := first_failure_of_mapM hedges
      obtain ⟨s, cause, hs, hs', rfl⟩ := fails_of_makeEdge plain hfails
      refine .edge (fun b hb => ?_) place (fun b hb => ?_) hs hs'
      · obtain ⟨n, hn⟩ := result_of_mapM hnodes b hb
        exact (realizesNode_of_makeNode hn).builds
      · obtain ⟨k, hk⟩ := hbefore b hb
        exact (realizesEdge_of_makeEdge hk).builds
    · cases h

lemma Realizes.builds {g : Graph} (realizes : r.Realizes d g) : r.Builds d := by
  refine ⟨fun a ha => ?_, fun a ha => ?_⟩
  · obtain ⟨n, -, hn⟩ := exists_of_forall₂ realizes.nodes a ha
    exact hn.builds
  · obtain ⟨e, -, he⟩ := exists_of_forall₂ realizes.edges a ha
    exact he.builds

lemma Fails.not_makes {α : Type} {makes : Except BuildError α → Prop} {type : String}
    {e : BuildError} (fails : Fails makes type e)
    (unique : ∀ x y, makes x → makes y → x = y) (a : α) : ¬ makes (.ok a) := by
  intro ha
  cases fails with
  | error he plain => cases unique _ _ ha he
  | endless never => exact never _ ha

lemma Refuses.not_builds {e : BuildError} (refuses : r.Refuses d e) : ¬ r.Builds d := by
  intro builds
  cases refuses with
  | @node before after a s e place earlier given fails =>
    obtain ⟨b, hb⟩ := builds.nodes a (by simp [place]) s given
    exact fails.not_makes (fun _ _ => MakesBehaviour.unique) b hb
  | @edge before after a s cause nodes place earlier given fails =>
    obtain ⟨c, hc⟩ := builds.edges a (by simp [place]) s given
    exact fails.not_makes (fun _ _ => MakesCondition.unique) c hc

end Registry

/-! ## What is left for the inspection -/

/-- The graph of a document in which nodes do nothing and edges have no conditions. -/
def Document.outline (d : Document) : Graph :=
  .assemble
    (d.nodes.map fun a =>
      { guid := a.guid, position := a.position, behaviour := a.node.map fun _ => .empty })
    (d.edges.map fun a => .make a.guid a.source a.port a.target) d.entry d.defaults

namespace Graph

/-- The nodes look the same to an inspection. -/
structure NodeAlike (n n' : Node) : Prop where
  guid : n.guid = n'.guid
  behaviour : n.behaviour.isNone = n'.behaviour.isNone

/-- The edges look the same to an inspection. -/
structure EdgeAlike (e e' : Edge) : Prop where
  guid : e.guid = e'.guid
  source : e.source = e'.source
  target : e.target = e'.target

variable {g g' : Graph}

lemma nodeDefects_congr {nodes nodes' : List Node} (alike : List.Forall₂ NodeAlike nodes nodes')
    (before : List Guid) : nodeDefects before nodes = nodeDefects before nodes' := by
  induction alike generalizing before with
  | nil => rfl
  | cons h _ ih => simp only [nodeDefects, h.guid, h.behaviour, ih]

lemma edgeDefects_congr (contains : ∀ guid, g.contains guid = g'.contains guid)
    {edges edges' : List Edge} (alike : List.Forall₂ EdgeAlike edges edges')
    (before : List Guid) : g.edgeDefects before edges = g'.edgeDefects before edges' := by
  induction alike generalizing before with
  | nil => rfl
  | cons h _ ih => simp only [edgeDefects, h.guid, h.source, h.target, contains, ih]

lemma contains_congr (alike : List.Forall₂ NodeAlike g.nodes g'.nodes) (guid : Guid) :
    g.contains guid = g'.contains guid := by
  rw [Bool.eq_iff_iff, contains_iff, contains_iff]
  constructor
  · rintro ⟨n, hn, rfl⟩
    obtain ⟨n', hn', h⟩ := exists_of_forall₂ alike n hn
    exact ⟨n', hn', h.guid.symm⟩
  · rintro ⟨n', hn', rfl⟩
    obtain ⟨n, hn, h⟩ := exists_of_forall₂ (R := fun n' n => NodeAlike n n') alike.flip n' hn'
    exact ⟨n, hn, h.guid⟩

lemma defects_congr (nodes : List.Forall₂ NodeAlike g.nodes g'.nodes)
    (edges : List.Forall₂ EdgeAlike g.edges g'.edges) (entry : g.entry = g'.entry) :
    g.defects = g'.defects := by
  have hcontains := contains_congr nodes
  have hempty : g.nodes.isEmpty = g'.nodes.isEmpty := by
    rw [Bool.eq_iff_iff, List.isEmpty_iff_length_eq_zero, List.isEmpty_iff_length_eq_zero,
      nodes.length_eq]
  unfold defects entryDefects
  simp only [hempty, nodeDefects_congr nodes, edgeDefects_congr hcontains edges, entry, hcontains]

end Graph

namespace Registry

variable {r : Registry} {d : Document}

/-- Whatever has been made of it, a document has the defects of its outline. -/
lemma Realizes.defects_eq {g : Graph} (realizes : r.Realizes d g) :
    g.defects = d.outline.defects := by
  refine Graph.defects_congr ?_ ?_ realizes.entry
  · rw [Document.outline, Graph.nodes_assemble, List.forall₂_map_right_iff]
    refine realizes.nodes.flip.imp fun n a h => ⟨h.guid, ?_⟩
    rw [Option.isNone_map, ← isNone_eq_of_rel h.behaviour]
  · rw [Document.outline, Graph.assemble, List.forall₂_map_right_iff]
    exact realizes.edges.flip.imp fun e a h => ⟨h.guid, h.source, h.target⟩

/-- **A graph is what has been authored, and otherwise the first thing that cannot be built is to
blame.**  Take a registry of the built-in types and any others whose makers return no errors of
edges themselves, and any document.

* The document becomes a graph exactly if the makers that are registered for the types of its specs
  make something of every spec of a node and of every spec of a condition.
* The graph has the nodes of the document in their order, with their guids and positions, and with
  behaviours exactly where there are specs; the edges likewise, with their ports named; and the same
  entry and defaults.  Its defects are those of the document's outline, whatever the registry.
* Otherwise the error is that of the first node that cannot be built or, if there is none, that of
  the first edge, wrapped once.  Where a maker never comes to an end, neither does the document. -/
theorem graphOf_faithful (stocked : r.Stocked) (d : Document) :
    ((∃ g, r.graphOf d = .ok g) ↔ r.Builds d) ∧
      (∀ g, r.graphOf d = .ok g → r.Realizes d g ∧ g.defects = d.outline.defects) ∧
      (∀ e, r.graphOf d = .error e → r.Refuses d e) := by
  refine ⟨⟨?_, ?_⟩, ?_, ?_⟩
  · rintro ⟨g, hg⟩
    exact (realizes_of_graphOf hg).builds
  · intro builds
    cases hgraph : r.graphOf d with
    | ok g => exact ⟨g, rfl⟩
    | error e => exact absurd builds (refuses_of_graphOf stocked.plainMakers hgraph).not_builds
  · intro g hg
    have hrealizes := realizes_of_graphOf hg
    exact ⟨hrealizes, hrealizes.defects_eq⟩
  · exact fun e he => refuses_of_graphOf stocked.plainMakers he

/-! ### A house with mistakes -/

/-- The negation of a condition that there is not. -/
def notNever : Spec := ⟨"Not", .object [("inner", .object [("type", .string "Never")])]⟩

/-- A way to nowhere. -/
def way (condition : Option Spec) : AuthoredEdge where
  guid := "way"
  source := "hall"
  target := "attic"
  condition := condition

/-- Two halls that do nothing, with a way from there to nowhere. -/
def house (condition : Option Spec) : Document where
  nodes := [{ guid := "hall" }, { guid := "hall" }]
  edges := [way condition]

lemma graphOf_house_notNever :
    builtin.graphOf (house (some notNever)) = .error (.edge "way" (.unknownCondition "Never")) := by
  have hnever : builtin.makeCondition ⟨"Never", .null⟩ = .error (.unknownCondition "Never") := by
    rw [Spec.makeCondition_eq]
    rfl
  have hnot : builtin.makeCondition notNever = .error (.unknownCondition "Never") := by
    rw [Spec.makeCondition_of_reading (r := .not ⟨"Never", .null⟩) rfl, Reading.build, hnever]
    rfl
  have hway : builtin.makeEdge (way (some notNever)) =
      .error (.edge "way" (.unknownCondition "Never")) := by
    simp only [makeEdge, way, whenGiven, hnot]
    rfl
  show ([way (some notNever)].mapM builtin.makeEdge >>= _) = _
  rw [List.mapM_cons, hway]
  rfl

/-- A registry with two types of a host that stand for built-in ones: gates are branches, and a
knock is short for its event. -/
def withGates : Registry :=
  (builtin.addNodeMaker "Gate" fun data => .behaviour "" ⟨"Branch", data⟩ .done).addConditionMaker
    "Knock" fun _ => .build ⟨"EventFired", .object [("event", .string "knock")]⟩

lemma stocked_withGates : withGates.Stocked := by
  refine .conditions (.nodes (.builtins .base) "Gate" fun data => ?_) "Knock" fun data => ?_
  · exact fun answer plain => plain
  · exact Recipe.plain_build _

lemma makesBehaviour_gate : withGates.MakesBehaviour "hall" ⟨"Gate", .null⟩
    (.ok (BuiltinNode.branch [defaultPort]).behaviour) := by
  let branchDecoder : Json.Decoder BuiltinNode :=
    BuiltinNode.oneField "BranchNode" "ports" [defaultPort] (.list .string) .branch
  have hbranch : withGates.nodes["Branch"]? = some fun data =>
      .done ((decodeData "Branch" branchDecoder data).map BuiltinNode.behaviour) := rfl
  exact .behaviour hbranch (.done _) (.done _)

lemma makesCondition_knock : withGates.MakesCondition ⟨"Knock", .null⟩
    (.ok (BuiltinCondition.eventFired "knock" 1).condition) := by
  have hfired : withGates.conditions["EventFired"]? = some fun data =>
      .done ((decodeData "EventFired" BuiltinCondition.eventFiredDecoder data).map
        BuiltinCondition.condition) := rfl
  exact .condition hfired (.done _) (.done _)

/-- A gate that opens to a knock. -/
def gatehouse : Document where
  nodes := [{ guid := "hall", node := some ⟨"Gate", .null⟩ }]
  edges := [way (some ⟨"Knock", .null⟩)]

lemma builds_gatehouse : withGates.Builds gatehouse := by
  constructor
  · intro a ha s hs
    obtain rfl := List.mem_singleton.mp ha
    obtain rfl := Option.some.inj hs
    exact ⟨_, makesBehaviour_gate⟩
  · intro a ha s hs
    obtain rfl := List.mem_singleton.mp ha
    obtain rfl := Option.some.inj hs
    exact ⟨_, makesCondition_knock⟩

/-- The error of the negated condition comes back wrapped once.  Without the condition the house
becomes a graph, with all its mistakes.  The gatehouse becomes a graph too, although its specs stand
for others, one of which has more data than they have. -/
theorem graphOf_faithful_house :
    builtin.Stocked ∧
      builtin.graphOf (house (some notNever)) =
        .error (.edge "way" (.unknownCondition "Never")) ∧
      builtin.Refuses (house (some notNever)) (.edge "way" (.unknownCondition "Never")) ∧
      (∃ g, builtin.graphOf (house none) = .ok g ∧ g.defects =
        [.missingBehaviour 0 "hall", .duplicateNodeGuid "hall", .missingBehaviour 1 "hall",
          .unknownTarget "way" "attic"]) ∧
      ∃ g, withGates.graphOf gatehouse = .ok g ∧ g.defects = [.unknownTarget "way" "attic"] := by
  have stocked : builtin.Stocked := .builtins .base
  have hfails := graphOf_house_notNever
  obtain ⟨-, -, hrefused⟩ := graphOf_faithful stocked (house (some notNever))
  obtain ⟨hbuilds, hrealized, -⟩ := graphOf_faithful stocked (house none)
  obtain ⟨g, hg⟩ := hbuilds.mpr
    ⟨by simp [house, BuildsNode], by simp [house, way, BuildsEdge]⟩
  obtain ⟨-, hdefects⟩ := hrealized g hg
  have hmistakes : (house none).outline.defects = [.missingBehaviour 0 "hall",
      .duplicateNodeGuid "hall", .missingBehaviour 1 "hall", .unknownTarget "way" "attic"] := by
    decide +kernel
  obtain ⟨hbuilds', hrealized', -⟩ := graphOf_faithful stocked_withGates gatehouse
  obtain ⟨g', hg'⟩ := hbuilds'.mpr builds_gatehouse
  obtain ⟨-, hdefects'⟩ := hrealized' g' hg'
  exact ⟨stocked, hfails, hrefused _ hfails, ⟨g, hg, hdefects.trans hmistakes⟩, g', hg',
    hdefects'.trans (by decide +kernel)⟩

end Registry

end WorkflowGraph

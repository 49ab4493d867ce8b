import WorkflowGraph.Scenario
import WorkflowGraph.Proofs.Conduct
import WorkflowGraph.Proofs.Reading
import WorkflowGraph.Proofs.Validity

/-!
# The plan of the door

What the document of the door is when it has been built (`Door.graphOf_document`): its nodes are
the `Door.fixtures`, each of them a built-in node, and its edges are the `Door.ways`.  The graph has
no defects, and under a guid it has the behaviour of the fixture with that guid, so that what the
fixtures do is the conduct of the graph (`Door.conduct`).
-/

namespace WorkflowGraph.Door

open Json

/-! ## The fixtures -/

/-- A node of the door, and what it is. -/
structure Fixture where
  guid : Guid
  position : Position
  kind : BuiltinNode

def Fixture.node (f : Fixture) : Node where
  guid := f.guid
  position := f.position
  behaviour := some f.kind.behaviour

/-- The nodes of the door. -/
def fixtures : List Fixture :=
  [⟨"closed", ⟨0, 0⟩, .waitEvent "knock"⟩,
    ⟨"greet", ⟨200, 0⟩, .log "who's there?" .info⟩,
    ⟨"opening", ⟨400, 0⟩, .wait (Number.double 1).toSingle⟩,
    ⟨"open", ⟨600, 0⟩, .setBlackboard [⟨openKey, .bool true⟩]⟩,
    ⟨"hold", ⟨600, 200⟩, .wait (Number.double 2).toSingle⟩,
    ⟨"closing", ⟨400, 200⟩, .setBlackboard [⟨openKey, .bool false⟩]⟩,
    ⟨"locked", ⟨0, 200⟩, .wait (Number.double 3).toSingle⟩]

lemma fixture_unique {f f' : Fixture} (hf : f ∈ fixtures) (hf' : f' ∈ fixtures)
    (same : f.guid = f'.guid) : f = f' := by
  have hnodup : (fixtures.map (·.guid)).Nodup := by decide
  exact List.inj_on_of_nodup_map hnodup hf hf' same

/-! ## The ways between them -/

/-- There has been a knock and the door is not open. -/
def knocked : Condition :=
  (Combination.all
    [(BuiltinCondition.eventFired "knock" 1).condition,
      (Combination.not (BuiltinCondition.compare openKey .eq (.bool true)).condition).condition]
    ).condition

/-- The wait of the current node is over. -/
def waitOver : Condition := (BuiltinCondition.waitElapsed none).condition

/-- An edge of the door. -/
def way (guid source target : Guid) (condition : Option Condition) : Edge :=
  (Edge.make guid source "Next" target).guardedBy condition

/-- The edges of the door. -/
def ways : List Edge :=
  [way "knocked" "closed" "greet" (some knocked),
    way "greeted" "greet" "opening" none,
    way "swung" "opening" "open" (some waitOver),
    way "opened" "open" "hold" none,
    way "held" "hold" "closing" (some waitOver),
    way "closed-again" "closing" "closed" none,
    way "unlocked" "locked" "closing" (some waitOver)]

/-- The graph of the door. -/
def graph : Graph :=
  .assemble (fixtures.map Fixture.node) ways (some "closed") [⟨openKey, .bool false⟩]

/-! ## Building the document -/

lemma makeCondition_waited : Registry.builtin.makeCondition waited = .ok waitOver :=
  Spec.makeCondition_of_reading (r := .leaf (.waitElapsed none)) rfl

lemma makeCondition_knockedWhileClosed :
    Registry.builtin.makeCondition knockedWhileClosed = .ok knocked := by
  let fired : Spec := ⟨"EventFired", data [("event", .string "knock")]⟩
  let isOpen : Spec :=
    ⟨"Compare", data [("key", .string openKey), ("op", .string "=="),
      ("value", data [("type", .string "bool"), ("value", .boolean true)])]⟩
  let notOpen : Spec :=
    ⟨"Not", data [("inner", part "Compare" [("key", .string openKey), ("op", .string "=="),
      ("value", data [("type", .string "bool"), ("value", .boolean true)])])]⟩
  have hfired : Registry.builtin.makeCondition fired =
      .ok (BuiltinCondition.eventFired "knock" 1).condition :=
    Spec.makeCondition_of_reading (r := .leaf (.eventFired "knock" 1)) rfl
  have hopen : Registry.builtin.makeCondition isOpen =
      .ok (BuiltinCondition.compare openKey .eq (.bool true)).condition :=
    Spec.makeCondition_of_reading (r := .leaf (.compare openKey .eq (.bool true))) rfl
  have hnotOpen : Registry.builtin.makeCondition notOpen = .ok (Combination.not
      (BuiltinCondition.compare openKey .eq (.bool true)).condition).condition := by
    rw [Spec.makeCondition_of_reading (r := .not isOpen) rfl, Reading.build, hopen]
    rfl
  rw [Spec.makeCondition_of_reading (r := .all [fired, notOpen]) rfl]
  simp only [Reading.build, List.mapM_cons, hfired, hnotOpen]
  rfl

/-- The document of the door builds, and what it builds is the graph. -/
lemma graphOf_document : Registry.builtin.graphOf document = .ok graph := by
  have hnodes : document.nodes.mapM Registry.builtin.makeNode =
      .ok (fixtures.map Fixture.node) :=
    mapM_eq_ok_iff.mpr <|
      .cons (Registry.makeNode_of_maker rfl rfl rfl) <|
      .cons (Registry.makeNode_of_maker rfl rfl rfl) <|
      .cons (Registry.makeNode_of_maker rfl rfl rfl) <|
      .cons (Registry.makeNode_of_maker rfl rfl rfl) <|
      .cons (Registry.makeNode_of_maker rfl rfl rfl) <|
      .cons (Registry.makeNode_of_maker rfl rfl rfl) <|
      .cons (Registry.makeNode_of_maker rfl rfl rfl) .nil
  have hedges : document.edges.mapM Registry.builtin.makeEdge = .ok ways := by
    simp only [document, List.mapM_cons, List.mapM_nil, Registry.makeEdge, edge,
      Registry.whenGiven, makeCondition_waited, makeCondition_knockedWhileClosed]
    rfl
  rw [Registry.graphOf, hnodes]
  show (document.edges.mapM Registry.builtin.makeEdge).bind _ = _
  rw [hedges]
  rfl

lemma defects_graph : graph.defects = [] := by decide +kernel

lemma resolvedEntry_graph : graph.resolvedEntry = some "closed" := rfl

/-! ## Conduct -/

/-- The fixture with a guid. -/
def fixture? (guid : Guid) : Option Fixture := fixtures.find? fun f => f.guid == guid

lemma mem_of_fixture? {guid : Guid} {f : Fixture} (h : fixture? guid = some f) :
    f ∈ fixtures ∧ f.guid = guid :=
  ⟨List.mem_of_find?_eq_some h, by simpa using List.find?_some h⟩

lemma behaviour?_graph (guid : Guid) :
    graph.behaviour? guid = (fixture? guid).map (·.kind.behaviour) := by
  have hnodes : graph.nodes = fixtures.map Fixture.node := Graph.nodes_assemble _ _ _ _
  have hfind : (fixtures.map Fixture.node).find? (fun n => n.guid == guid) =
      (fixture? guid).map Fixture.node := List.find?_map
  rw [Graph.behaviour?, Graph.node?_eq_find?, hnodes, hfind]
  cases fixture? guid <;> rfl

lemma exists_fixture {guid : Guid} {b : Behaviour} (hb : graph.behaviour? guid = some b) :
    ∃ f ∈ fixtures, f.guid = guid ∧ b = f.kind.behaviour := by
  rw [behaviour?_graph] at hb
  obtain ⟨f, hf, rfl⟩ := Option.map_eq_some_iff.mp hb
  obtain ⟨hmem, hguid⟩ := mem_of_fixture? hf
  exact ⟨f, hmem, hguid, rfl⟩

/-- The deed changes the blackboard, watches an event, publishes one or writes into the journal. -/
def Modest : Deed → Prop
  | .edit _ | .watch _ | .publish _ | .note _ => True
  | _ => False

lemma modest_of_no_jump {kind : BuiltinNode} (stays : ∀ target, kind ≠ .jump target)
    (phase : Phase) (s : Session) : ∀ d ∈ kind.deeds phase s, Modest d := by
  intro d hd
  cases kind with
  | jump target => exact absurd rfl (stays target)
  | _ =>
      cases phase <;> simp only [BuiltinNode.deeds, List.mem_cons, List.not_mem_nil, or_false] at hd
      all_goals
        rcases hd with rfl | rfl <;> trivial

lemma modest_deeds {f : Fixture} (hf : f ∈ fixtures) (phase : Phase) (s : Session) :
    ∀ d ∈ f.kind.deeds phase s, Modest d := by
  apply modest_of_no_jump
  intro target hjump
  simp only [fixtures, List.mem_cons, List.not_mem_nil, or_false] at hf
  rcases hf with rfl | rfl | rfl | rfl | rfl | rfl | rfl <;> cases hjump

/-- What the nodes of the door do. -/
def conduct : graph.Conduct Modest where
  deeds guid phase s := ((fixture? guid).map fun f => f.kind.deeds phase s).getD []
  allowed := by
    intro guid phase s d hd
    cases hf : fixture? guid with
    | none => simp [hf] at hd
    | some f => exact modest_deeds (mem_of_fixture? hf).1 phase s d (by simpa [hf] using hd)
  onPhase_eq := by
    intro guid b hb phase s
    rw [behaviour?_graph] at hb
    obtain ⟨f, hf, rfl⟩ := Option.map_eq_some_iff.mp hb
    simp only [hf, Option.map_some, Option.getD_some]
    exact f.kind.actor.onPhase_eq phase s

end WorkflowGraph.Door

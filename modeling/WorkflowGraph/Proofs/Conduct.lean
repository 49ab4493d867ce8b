import WorkflowGraph.Catalog.Script
import WorkflowGraph.Proofs.Deed

/-!
# Conduct

A graph whose nodes act by deeds has a *conduct*: a function that says which deeds a callback
does.  What a callback does may depend on everything it can see, so the deeds depend on the
session it is called with.  `Graph.Conduct g Allowed` also bounds what the callbacks may do, and
leaves open what nodes there are.

The nodes of the catalogue are *actors*: the built-in ones (`BuiltinNode.actor`), the scripted
ones (`Script.actor`) and the empty one all act by deeds, and none of them moves the position
that the machine has noted in the context.  A graph that is cast with actors has a conduct
(`Cast.conduct`).
-/

namespace WorkflowGraph

/-- What the callbacks of a graph do, all of it allowed. -/
structure Graph.Conduct (g : Graph) (Allowed : Deed → Prop) where
  deeds : Guid → Phase → Session → List Deed
  allowed : ∀ guid phase s, ∀ d ∈ deeds guid phase s, Allowed d
  onPhase_eq : ∀ guid b, g.behaviour? guid = some b →
    ∀ phase s, b.onPhase phase s = Deed.performAll (deeds guid phase s) s

namespace Graph.Conduct

variable {g : Graph} {Allowed Allowed' : Deed → Prop}

/-- The same conduct with a wider bound. -/
def weaken (p : g.Conduct Allowed) (wider : ∀ d, Allowed d → Allowed' d) : g.Conduct Allowed' :=
  { p with allowed := fun guid phase s d hd => wider d (p.allowed guid phase s d hd) }

end Graph.Conduct

/-! ## Observed graphs -/

namespace Graph

/-- The graph in which each call of a node is entered into the journal before the node acts. -/
def observed (g : Graph) : Graph :=
  { g with
    nodes := g.nodes.map fun n => { n with behaviour := n.behaviour.map Behaviour.observed }
    index_eq := fun guid => by
      rw [g.index_eq, List.findIdx?_map]
      rfl }

lemma behaviour?_observed (g : Graph) (guid : Guid) :
    g.observed.behaviour? guid = (g.behaviour? guid).map Behaviour.observed := by
  simp only [behaviour?, node?_eq_find?, observed, List.find?_map, Function.comp_def]
  cases g.nodes.find? fun n => n.guid == guid <;> rfl

/-- What the nodes of the observed graph do. -/
def Conduct.observed {g : Graph} {Allowed : Deed → Prop} (p : g.Conduct Allowed)
    (notes : ∀ notice, Allowed (.note notice)) : g.observed.Conduct Allowed where
  deeds guid phase s :=
    let notice := .callback phase s.context.currentNode
    .note notice :: p.deeds guid phase (s.note notice)
  allowed := by
    intro guid phase s d hd
    rcases List.mem_cons.mp hd with rfl | hd
    · exact notes _
    · exact p.allowed _ _ _ _ hd
  onPhase_eq := by
    intro guid b hb phase s
    rw [behaviour?_observed] at hb
    obtain ⟨own, hown, rfl⟩ := Option.map_eq_some_iff.mp hb
    have hcall := p.onPhase_eq guid own hown phase (s.note (.callback phase s.context.currentNode))
    rw [Deed.performAll_cons]
    refine Eq.trans ?_ hcall
    cases phase <;> rfl

end Graph

/-- A behaviour with the deeds it does, all of them allowed. -/
structure Actor (Allowed : Deed → Prop) where
  behaviour : Behaviour
  deeds : Phase → Session → List Deed
  allowed : ∀ phase s, ∀ d ∈ deeds phase s, Allowed d
  onPhase_eq : ∀ phase s, behaviour.onPhase phase s = Deed.performAll (deeds phase s) s

/-! ## The actors of the catalogue -/

namespace BuiltinNode

/-- What a built-in node does. -/
def deeds : BuiltinNode → Phase → Session → List Deed
  | .log message severity, .enter, s => [.note (.log severity (here s) message)]
  | .wait seconds, .enter, s =>
    [.edit fun b => b.set (waitKey (here s)) (.seed (.float (atLeastZero seconds)))]
  | .wait _, .update, s =>
    let left := (s.context.blackboard.float? (waitKey (here s))).getD 0.0 - s.context.deltaTime
    [.edit fun b => b.set (waitKey (here s)) (.seed (.float (atLeastZero left)))]
  | .waitEvent event, .enter, _ => [.clearCount event, .watch event]
  | .publishEvent event, .enter, _ => [.publish event]
  | .setBlackboard entries, .enter, _ => [.edit fun b => b.writeAll entries]
  | .jump target, .enter, _ => [.request target]
  | _, _, _ => []

/-- A built-in node as an actor. -/
def actor (n : BuiltinNode) : Actor Deed.KeepsPlace where
  behaviour := n.behaviour
  deeds := n.deeds
  allowed := by
    intro phase s d hd
    cases n <;> cases phase <;> simp only [deeds, List.mem_cons, List.not_mem_nil, or_false] at hd
    all_goals
      rcases hd with rfl | rfl <;> trivial
  onPhase_eq := by
    intro phase s
    cases n <;> cases phase <;> rfl

end BuiltinNode

/-- The deed of an action of a scripted node. -/
def Action.deed : Action → Deed
  | .set key value => .edit fun b => b.set key value
  | .unset key => .edit fun b => b.erase key
  | .increment key => .edit fun b => b.set key (.seed (.int (b.int key 0 + 1)))
  | .request guid => .request guid
  | .watch event => .watch event
  | .listen event => .subscribe event (.notify ("run:" ++ event))
  | .listenWhileActive event => .subscribeForNode event (.notify ("node:" ++ event))
  | .publish event => .publish event
  | .mark event =>
    .edit fun b => ({ address := 0, blackboard := b : Context }.countEvent event 1).blackboard
  | .reset => .reset
  | .release => .release

lemma Action.perform_eq (a : Action) (s : Session) : a.perform s = a.deed.perform s := by
  cases a <;> rfl

lemma Action.keepsPlace (a : Action) : a.deed.KeepsPlace := by
  cases a <;> trivial

namespace Script

/-- A scripted node as an actor: each call leaves an entry in the journal before the actions. -/
def actor (script : Script) : Actor Deed.KeepsPlace where
  behaviour := script.behaviour
  deeds phase s :=
    .note (.callback phase s.context.currentNode) :: (script.actions phase).map Action.deed
  allowed := by
    intro phase s d hd
    rcases List.mem_cons.mp hd with rfl | hd
    · trivial
    · obtain ⟨a, -, rfl⟩ := List.mem_map.mp hd
      exact a.keepsPlace
  onPhase_eq := by
    intro phase s
    have hactions : ∀ (actions : List Action) (s : Session),
        actions.foldl (fun s a => a.perform s) s =
          Deed.performAll (actions.map Action.deed) s := by
      intro actions
      induction actions with
      | nil => exact fun s => rfl
      | cons a rest ih =>
          intro s
          rw [List.foldl_cons, ih, List.map_cons, Deed.performAll_cons, Action.perform_eq]
    rw [Deed.performAll_cons, ← hactions]
    cases phase <;> rfl

end Script

/-- The node that does nothing as an actor. -/
def Actor.idle : Actor Deed.KeepsPlace where
  behaviour := .empty
  deeds _ _ := []
  allowed := by simp
  onPhase_eq := by
    intro phase s
    cases phase <;> rfl

/-! ## Graphs that are cast with actors -/

namespace Graph

lemma nodes_foldl_addNode (nodes : List Node) (g : Graph) :
    (nodes.foldl addNode g).nodes = g.nodes ++ nodes := by
  induction nodes generalizing g with
  | nil => simp
  | cons n rest ih => simp [ih, addNode]

lemma nodes_assemble (nodes : List Node) (edges : List Edge) (entry : Option Guid)
    (defaults : List Entry) : (assemble nodes edges entry defaults).nodes = nodes :=
  nodes_foldl_addNode nodes empty

end Graph

/-- Guids with the actors under them, in the order of the nodes. -/
abbrev Cast (Allowed : Deed → Prop) := List (Guid × Actor Allowed)

namespace Cast

variable {Allowed : Deed → Prop}

/-- The graph of a cast. -/
def graph (cast : Cast Allowed) (edges : List Edge) (entry : Option Guid) : Graph :=
  .assemble (cast.map fun (guid, a) => { guid, behaviour := some a.behaviour }) edges entry []

/-- Under a guid the graph has the behaviour of the first actor under it. -/
lemma behaviour?_graph (cast : Cast Allowed) (edges : List Edge) (entry : Option Guid)
    (guid : Guid) :
    (cast.graph edges entry).behaviour? guid = (cast.lookup guid).map (·.behaviour) := by
  have hnodes : (cast.graph edges entry).nodes =
      cast.map fun (guid, a) => { guid, behaviour := some a.behaviour } :=
    Graph.nodes_assemble _ _ _ _
  rw [Graph.behaviour?, Graph.node?_eq_find?, hnodes]
  clear hnodes
  induction cast with
  | nil => rfl
  | cons member rest ih =>
      obtain ⟨own, a⟩ := member
      by_cases h : own = guid
      · subst h
        simp
      · have hother : (guid == own) = false := by simpa using Ne.symm h
        simpa [List.lookup_cons, hother, h] using ih

/-- What a cast does. -/
def conduct (cast : Cast Allowed) (edges : List Edge) (entry : Option Guid) :
    (cast.graph edges entry).Conduct Allowed where
  deeds guid phase s :=
    match cast.lookup guid with
    | some a => a.deeds phase s
    | none => []
  allowed := by
    intro guid phase s d hd
    cases h : cast.lookup guid with
    | none => simp [h] at hd
    | some a => exact a.allowed phase s d (by simpa [h] using hd)
  onPhase_eq := by
    intro guid b hb phase s
    rw [behaviour?_graph] at hb
    obtain ⟨a, ha, rfl⟩ := Option.map_eq_some_iff.mp hb
    simpa [ha] using a.onPhase_eq phase s

/-- What no actor of a cast does, the cast does not. -/
lemma forall_mem_deeds {P : Deed → Prop} (cast : Cast Allowed) (edges : List Edge)
    (entry : Option Guid)
    (members : ∀ guid a, (guid, a) ∈ cast → ∀ phase s, ∀ d ∈ a.deeds phase s, P d) (guid : Guid)
    (phase : Phase) (s : Session) : ∀ d ∈ (cast.conduct edges entry).deeds guid phase s, P d := by
  intro d hd
  cases h : cast.lookup guid with
  | none => simp [conduct, h] at hd
  | some a =>
      obtain ⟨before, after, hcast, -⟩ := List.lookup_eq_some_iff.mp h
      have ha : (guid, a) ∈ cast := by simp [hcast]
      exact members guid a ha phase s d (by simpa [conduct, h] using hd)

end Cast

end WorkflowGraph

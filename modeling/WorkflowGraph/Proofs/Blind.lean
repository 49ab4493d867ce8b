import WorkflowGraph.Proofs.Instantiation
import WorkflowGraph.Proofs.Renaming

/-!
# What is not looked at

A node that is `Blind` does the same in twin sessions: it looks at no addresses, and at the time of
a frame only while it is called for that frame.  A condition is blind if it looks at no addresses
and not at the time of fixed frames.

The nodes and conditions of the catalogue are blind, so a cast of built-in nodes is, and so are the
edges of the graphs that the built-in registry makes of documents (`Graph.blindEdges_of_graphOf`).
Nor do nodes do anything for others than the context that they are called with (`Deed.Foreign`).
-/

namespace WorkflowGraph

/-- What is done in a call depends neither on addresses, nor on the time of a frame except in
the call for that frame. -/
def Blind (deeds : Phase → Session → List Deed) : Prop :=
  ∀ (σ : Nat → Nat) (s s' : Session) (phase : Phase), Function.Injective σ → s.Twins σ False s' →
    (phase = .update → s'.context.deltaTime = s.context.deltaTime) →
    (phase = .fixedUpdate → s'.context.fixedDeltaTime = s.context.fixedDeltaTime) →
    deeds phase s' = deeds phase s

/-- Whether the condition holds depends neither on addresses nor on the time of a fixed frame. -/
def Condition.Blind (c : Condition) : Prop :=
  ∀ (σ : Nat → Nat) (s s' : Session), Function.Injective σ → s.Twins σ True s' →
    c.holds s' = c.holds s

/-- All conditions of edges are blind. -/
def Graph.BlindEdges (g : Graph) : Prop := ∀ e ∈ g.edges, ∀ c, e.condition = some c → c.Blind

lemma Graph.BlindEdges.passes_eq {g : Graph} (blind : g.BlindEdges) {σ : Nat → Nat}
    (inj : Function.Injective σ) {s s' : Session} (twins : s.Twins σ True s') {e : Edge}
    (he : e ∈ g.edges) : e.passes s' = e.passes s := by
  unfold Edge.passes
  cases hcondition : e.condition with
  | none => rfl
  | some c => exact blind e he c hcondition σ s s' inj twins

/-! ## Nodes -/

/-- A built-in node looks at the time of a frame in its update, if at all. -/
lemma BuiltinNode.blind (node : BuiltinNode) : Blind node.deeds := by
  intro σ s s' phase _ twins time _
  cases twins with
  | @mk deltaTime fixedDeltaTime h' _ _ =>
      cases node with
      | wait seconds =>
          cases phase with
          | update =>
              obtain rfl : deltaTime = s.context.deltaTime := time rfl
              rfl
          | enter | fixedUpdate | exit => rfl
      | _ => cases phase <;> rfl

lemma BuiltinNode.foreign (node : BuiltinNode) (n : Nat) (phase : Phase) (s : Session) :
    ∀ d ∈ node.deeds phase s, d.Foreign n := by
  intro d hd
  cases node <;> cases phase <;> simp only [deeds, List.mem_cons, List.not_mem_nil, or_false] at hd
  all_goals
    rcases hd with rfl | rfl <;> trivial

/-- The same conduct within another bound that it keeps. -/
def Graph.Conduct.within {g : Graph} {Allowed Allowed' : Deed → Prop} (p : g.Conduct Allowed)
    (keeps : ∀ guid phase s, ∀ d ∈ p.deeds guid phase s, Allowed' d) : g.Conduct Allowed' where
  deeds := p.deeds
  allowed := keeps
  onPhase_eq := p.onPhase_eq

/-- What is done by members that are blind is blind. -/
lemma Cast.blind {Allowed : Deed → Prop} (cast : Cast Allowed) (edges : List Edge)
    (entry : Option Guid) (members : ∀ guid a, (guid, a) ∈ cast → Blind a.deeds) (guid : Guid) :
    Blind ((cast.conduct edges entry).deeds guid) := by
  intro σ s s' phase inj twins time fixedTime
  cases h : cast.lookup guid with
  | none => simp only [conduct, h]
  | some a =>
      obtain ⟨before, after, hcast, -⟩ := List.lookup_eq_some_iff.mp h
      have ha : (guid, a) ∈ cast := by simp [hcast]
      simpa only [conduct, h] using members guid a ha σ s s' phase inj twins time fixedTime

/-! ## Conditions -/

lemma BuiltinCondition.blind (c : BuiltinCondition) : c.condition.Blind := by
  intro σ s s' _ twins
  obtain ⟨-, -⟩ := twins
  cases c <;> rfl

lemma Combination.blind_not {inner : Condition} (blind : inner.Blind) :
    (Combination.not inner).condition.Blind :=
  fun σ s s' inj twins => congrArg (!·) (blind σ s s' inj twins)

lemma Combination.blind_all {parts : List Condition} (blind : ∀ c ∈ parts, c.Blind) :
    (Combination.all parts).condition.Blind := by
  intro σ s s' inj twins
  rw [Bool.eq_iff_iff]
  simp only [condition, List.all_eq_true]
  exact forall₂_congr fun c hc => by rw [blind c hc σ s s' inj twins]

lemma Combination.blind_any {parts : List Condition} (blind : ∀ c ∈ parts, c.Blind) :
    (Combination.any parts).condition.Blind := by
  intro σ s s' inj twins
  rw [Bool.eq_iff_iff]
  simp only [condition, List.any_eq_true]
  exact exists_congr fun c => and_congr_right fun hc => by rw [blind c hc σ s s' inj twins]

/-- Every condition that the built-in registry makes is blind, those of its parts included. -/
lemma Registry.blind_of_makeCondition {s : Spec} {c : Condition}
    (h : builtin.makeCondition s = .ok c) : c.Blind := by
  rw [Spec.makeCondition_eq] at h
  obtain ⟨r, hread, hbuild⟩ := bind_eq_ok h
  -- The recursion is on the weight of the data, which the parts have less of.
  have hparts : ∀ p ∈ r.parts, ∀ part, builtin.makeCondition p = .ok part → part.Blind := by
    intro p hp part hpart
    have hlighter := Spec.weight_lt_of_reading hread p hp
    exact blind_of_makeCondition hpart
  cases r with
  | leaf c' =>
    cases hbuild
    exact c'.blind
  | not inner =>
    obtain ⟨part, hpart, hc⟩ := bind_eq_ok hbuild
    cases hc
    exact Combination.blind_not (hparts inner List.mem_cons_self part hpart)
  | all specs =>
    obtain ⟨parts, hmade, hc⟩ := bind_eq_ok hbuild
    cases hc
    refine Combination.blind_all fun part hpart => ?_
    obtain ⟨p, hp, hpart⟩ := exists_of_mem_mapM hmade part hpart
    exact hparts p hp part hpart
  | any specs =>
    obtain ⟨parts, hmade, hc⟩ := bind_eq_ok hbuild
    cases hc
    refine Combination.blind_any fun part hpart => ?_
    obtain ⟨p, hp, hpart⟩ := exists_of_mem_mapM hmade part hpart
    exact hparts p hp part hpart
termination_by s.data.weight

/-- A graph that the built-in registry makes of a document has blind edges. -/
lemma Graph.blindEdges_of_graphOf {d : Document} {g : Graph}
    (h : Registry.builtin.graphOf d = .ok g) : g.BlindEdges := by
  intro e he c hc
  obtain ⟨a, -, ha⟩ := exists_of_forall₂ (R := fun e a => Registry.builtin.RealizesEdge a e)
    (Registry.realizes_of_graphOf h).edges.flip e he
  have hrel := ha.condition
  rw [hc] at hrel
  generalize a.condition = spec at hrel
  cases hrel with
  | some made => exact Registry.blind_of_makeCondition (Registry.makeCondition_eq_ok_iff.mpr made)

end WorkflowGraph

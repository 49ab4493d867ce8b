import Mathlib.Data.List.Basic
import Mathlib.Tactic.Lemma
import WorkflowGraph.Graph

/-!
# Looking up what has been authored

An author builds a graph by one change after the other (`Change`), in any order and with whatever
guids come to mind: the same one twice, or the empty one.  The nodes of the graph are those that
were added, in their order (`Graph.nodes_authored`).

Whoever asks for a node goes through the index, which is extended as nodes are added, and never
through the nodes.  `Graph.lookups_agree_with_scan` says that this makes no difference: the index
gives the first of the authored nodes with a guid, and since nodes are only added at the end, no
later change gives a guid that is known another meaning.
-/

namespace WorkflowGraph
namespace Graph

/-- What an author does to a graph. -/
inductive Change where
  | node (n : Node)
  | edge (e : Edge)
  /-- Adds an edge whose guid is generated. -/
  | connection (guids : Nat) (source : Guid) (port : String) (target : Guid)
    (condition : Option Condition)
  | entry (guid : Guid)
  | default (e : Entry)

namespace Change

def perform : Change → Graph → Graph
  | .node n, g => g.addNode n
  | .edge e, g => g.addEdge e
  | .connection guids source port target condition, g =>
    g.connect guids source port target condition
  | .entry guid, g => g.setEntry guid
  | .default e, g => g.addDefault e

/-- The node that the change adds. -/
def node? : Change → Option Node
  | .node n => some n
  | _ => none

lemma nodes_perform (c : Change) (g : Graph) : (c.perform g).nodes = g.nodes ++ c.node?.toList := by
  cases c with
  | node n => rfl
  | edge | connection | entry | default => exact (List.append_nil g.nodes).symm

end Change

/-- The graph after some changes. -/
def authored (changes : List Change) (g : Graph) : Graph :=
  changes.foldl (fun g c => c.perform g) g

lemma authored_append (changes later : List Change) (g : Graph) :
    authored (changes ++ later) g = authored later (authored changes g) := List.foldl_append

lemma nodes_authored (changes : List Change) (g : Graph) :
    (authored changes g).nodes = g.nodes ++ changes.filterMap Change.node? := by
  induction changes generalizing g with
  | nil => exact (List.append_nil g.nodes).symm
  | cons c rest ih =>
      have hrest : (authored (c :: rest) g).nodes =
          (c.perform g).nodes ++ rest.filterMap Change.node? := ih (c.perform g)
      rw [hrest, c.nodes_perform, List.append_assoc]
      cases h : c.node? <;> simp [h]

variable {g : Graph} {guid : Guid}

/-- The node with a guid is the one in front of which no node has the guid. -/
lemma node?_eq_some_iff {n : Node} :
    g.node? guid = some n ↔
      ∃ before after, g.nodes = before ++ n :: after ∧ n.guid = guid ∧
        ∀ k ∈ before, k.guid ≠ guid := by
  rw [node?_eq_find?, List.find?_eq_some_iff_append]
  constructor
  · rintro ⟨hguid, before, after, hnodes, hbefore⟩
    exact ⟨before, after, hnodes, by simpa using hguid, fun k hk => by simpa using hbefore k hk⟩
  · rintro ⟨before, after, hnodes, hguid, hbefore⟩
    exact ⟨by simpa using hguid, before, after, hnodes, fun k hk => by simpa using hbefore k hk⟩

lemma exists_of_index {i : Nat} (h : g.index[guid]? = some i) :
    ∃ n, g.nodes[i]? = some n ∧ g.node? guid = some n := by
  have hscan := g.index_eq guid
  rw [h] at hscan
  obtain ⟨inRange, -⟩ := List.findIdx?_eq_some_iff_getElem.mp hscan.symm
  have hplace : g.nodes[i]? = some (g.nodes.get ⟨i, inRange⟩) := List.getElem?_eq_getElem inRange
  exact ⟨_, hplace, by rw [node?, h, Option.bind_some, hplace]⟩

lemma index_of_nodes_append {g' : Graph} {added : List Node} (hnodes : g'.nodes = g.nodes ++ added)
    (known : g.contains guid = true) : g'.index[guid]? = g.index[guid]? := by
  rw [contains, Std.ExtTreeMap.contains_iff_mem, Std.ExtTreeMap.mem_iff_isSome_getElem?] at known
  obtain ⟨i, hi⟩ := Option.isSome_iff_exists.mp known
  have hscan := g.index_eq guid
  rw [g'.index_eq, hnodes, List.findIdx?_append, ← hscan, hi, Option.some_or]

/-- **The index agrees with the nodes.**  After any changes to an empty graph, and for every guid:

* the nodes of the graph are those that were added, in their order;
* a guid is known exactly if a node has it, and the node found under it is the one that going
  through the nodes finds, which is the first one with the guid;
* a place that the index gives is the place of that node among the nodes;
* no later changes give a guid that is known another place, or another node. -/
theorem lookups_agree_with_scan (changes : List Change) (guid : Guid) :
    let g := authored changes empty
    let nodes := changes.filterMap Change.node?
    g.nodes = nodes ∧
      (g.contains guid = true ↔ ∃ n ∈ nodes, n.guid = guid) ∧
      g.node? guid = nodes.find? (fun n => n.guid == guid) ∧
      (∀ n, g.node? guid = some n ↔
        ∃ before after, nodes = before ++ n :: after ∧ n.guid = guid ∧
          ∀ k ∈ before, k.guid ≠ guid) ∧
      (∀ i, g.index[guid]? = some i → ∃ n, nodes[i]? = some n ∧ g.node? guid = some n) ∧
      ∀ later, g.contains guid = true →
        (authored (changes ++ later) empty).index[guid]? = g.index[guid]? ∧
          (authored (changes ++ later) empty).node? guid = g.node? guid := by
  intro g nodes
  have hnodes : g.nodes = nodes := nodes_authored changes empty
  refine ⟨hnodes, ?_, ?_, ?_, ?_, ?_⟩
  · rw [contains_iff, hnodes]
  · rw [node?_eq_find?, hnodes]
  · intro n
    rw [node?_eq_some_iff, hnodes]
  · intro i hi
    rw [← hnodes]
    exact exists_of_index hi
  · intro later known
    rw [authored_append]
    have hadded := nodes_authored later g
    -- The index keeps the first place of a guid, and what is added later stands behind it.
    have hindex := index_of_nodes_append hadded known
    obtain ⟨n, hn, hguid⟩ := (contains_iff g guid).mp known
    have hfound : (g.node? guid).isSome := by
      rw [node?_eq_find?, List.find?_isSome]
      exact ⟨n, hn, by simp [hguid]⟩
    obtain ⟨first, hfirst⟩ := Option.isSome_iff_exists.mp hfound
    refine ⟨hindex, ?_⟩
    rw [node?_eq_find?, hadded, List.find?_append, ← node?_eq_find?, hfirst, Option.some_or]

/-- Two nodes with the same guid and one without a name: each guid stands for the node that was
added first, also when a third one with the guid has been added. -/
theorem lookups_agree_with_scan_twins :
    let porch : Node := { guid := "porch", behaviour := some .empty }
    let hall : Node := { guid := "", behaviour := none }
    let twin : Node := { guid := "porch", behaviour := none }
    let changes : List Change :=
      [.node porch, .entry "attic", .node hall, .connection 0 "" "Next" "porch" none, .node twin]
    let g := authored changes empty
    g.nodes = [porch, hall, twin] ∧ g.contains "attic" = false ∧ g.contains "porch" = true ∧
      g.node? "porch" = some porch ∧ g.node? "" = some hall ∧
      (authored (changes ++ [.node twin]) empty).node? "porch" = some porch := by
  intro porch hall twin changes g
  obtain ⟨hnodes, hporch, hfirst, -, -, hlater⟩ := lookups_agree_with_scan changes "porch"
  obtain ⟨-, hattic, -⟩ := lookups_agree_with_scan changes "attic"
  obtain ⟨-, -, hhall, -⟩ := lookups_agree_with_scan changes ""
  have hlist : changes.filterMap Change.node? = [porch, hall, twin] := rfl
  rw [hlist] at hnodes hporch hfirst hattic hhall
  have hknown : g.contains "porch" = true := hporch.mpr ⟨porch, List.mem_cons_self, rfl⟩
  have hunknown : g.contains "attic" = false := by
    rw [Bool.eq_false_iff, ne_eq, hattic]
    simp [porch, hall, twin]
  have hfound : g.node? "porch" = some porch := hfirst
  exact ⟨hnodes, hunknown, hknown, hfound, hhall, (hlater [.node twin] hknown).2.trans hfound⟩

end Graph
end WorkflowGraph

import WorkflowGraph.Proofs.Inspection

/-!
# Graphs without defects

What a graph that can be run guarantees to whoever runs it.  Every node has a behaviour, so that
a guid is known exactly when there is something to call under it (`contains_iff_isSome_behaviour?`),
edges join nodes of the graph (`contains_ends_of_defects`) and are known by their guids
(`edge?_of_mem`), and there is a node to start from (`exists_resolvedEntry`).
-/

namespace WorkflowGraph
namespace Graph

variable {g : Graph}

lemma contains_of_behaviour? {guid : Guid} {b : Behaviour} (hb : g.behaviour? guid = some b) :
    g.contains guid = true := by
  obtain ⟨n, hn, -⟩ := Option.bind_eq_some_iff.mp hb
  rw [node?_eq_find?] at hn
  have hguid := List.find?_some hn
  exact (contains_iff g guid).mpr ⟨n, List.mem_of_find?_eq_some hn, by simpa using hguid⟩

/-- In a graph without defects a guid is known exactly when there is a behaviour under it. -/
lemma contains_iff_isSome_behaviour? (valid : g.defects = []) (guid : Guid) :
    g.contains guid = true ↔ (g.behaviour? guid).isSome = true := by
  constructor
  · intro known
    obtain ⟨n, hmem, hguid⟩ := (contains_iff g guid).mp known
    have found : (g.nodes.find? fun n => n.guid == guid).isSome := by
      rw [List.find?_isSome]
      exact ⟨n, hmem, by simp [hguid]⟩
    obtain ⟨first, hfirst⟩ := Option.isSome_iff_exists.mp found
    have well := g.defects_eq_nil_iff.mp valid
    have hbehaviour := well.behaviours first (List.mem_of_find?_eq_some hfirst)
    simpa [behaviour?, node?_eq_find?, hfirst] using hbehaviour
  · intro called
    obtain ⟨b, hb⟩ := Option.isSome_iff_exists.mp called
    exact contains_of_behaviour? hb

/-- Every edge of a graph without defects leads from a node of the graph to a node of the graph. -/
lemma contains_ends_of_defects (valid : g.defects = []) :
    ∀ e ∈ g.edges, g.contains e.source = true ∧ g.contains e.target = true := by
  intro e he
  obtain ⟨hsource, htarget⟩ := (g.defects_eq_nil_iff.mp valid).ends e he
  exact ⟨(contains_iff g e.source).mpr hsource, (contains_iff g e.target).mpr htarget⟩

/-- In a graph without defects every edge is the one that its guid stands for. -/
lemma edge?_of_mem (valid : g.defects = []) {e : Edge} (he : e ∈ g.edges) :
    g.edge? e.guid = some e := by
  have hnodup := (g.defects_eq_nil_iff.mp valid).edgeGuids_nodup
  have hfound : (g.edges.find? fun k => k.guid == e.guid).isSome := by
    rw [List.find?_isSome]
    exact ⟨e, he, by simp⟩
  obtain ⟨first, hfirst⟩ := Option.isSome_iff_exists.mp hfound
  have hguid : first.guid = e.guid := by simpa using List.find?_some hfirst
  have hsame := List.inj_on_of_nodup_map hnodup (List.mem_of_find?_eq_some hfirst) he hguid
  rw [edge?, hfirst, hsame]

/-- A graph without defects has a node to start from, and it can be called. -/
lemma exists_resolvedEntry (valid : g.defects = []) :
    ∃ entry, g.resolvedEntry = some entry ∧ (g.behaviour? entry).isSome = true := by
  have well := g.defects_eq_nil_iff.mp valid
  cases h : g.entry with
  | some entry =>
      refine ⟨entry, by simp [resolvedEntry, h], ?_⟩
      rw [← contains_iff_isSome_behaviour? valid, contains_iff]
      exact well.entry entry h
  | none =>
      cases hnodes : g.nodes with
      | nil => exact absurd hnodes well.nodes
      | cons first rest =>
          refine ⟨first.guid, by simp [resolvedEntry, h, hnodes], ?_⟩
          rw [← contains_iff_isSome_behaviour? valid, contains_iff]
          exact ⟨first, by simp [hnodes], rfl⟩

end Graph
end WorkflowGraph

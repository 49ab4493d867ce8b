import Mathlib.Data.List.Forall2
import Mathlib.Data.List.Nodup
import Mathlib.Tactic.Lemma
import WorkflowGraph.Graph.Defect

/-!
# What the inspection of a graph finds

`Graph.defects` goes through the nodes and then through the edges, and remembers which guids it
has come across.  This module says what the list holds without going through anything.

`Graph.WellFormed` is what a graph needs to be run, and `Graph.occurrences` says of every defect
how often it is there: an empty guid once for each place, a guid that is used `k` times `k - 1`
times, an unknown end once for each edge that has it.  `Graph.Concerns` says which part of the
graph a defect is found at.

The main result `Graph.defects_reported_once` ties the list to all three.  Both passes are
*inspections* (`inspect`), that is, all that is known of what came before is its guids.  So what
is found how often is shown once for any inspection, for each of the ways in which a defect can
depend on its place.
-/

namespace WorkflowGraph

/-! ## Inspections -/

section Inspections

variable {α : Type}

/-- Goes through a list, looking at each item together with the guids of the ones before it. -/
def inspect (guid : α → Guid) (look : List Guid → α → List Defect) :
    List Guid → List α → List Defect
  | _, [] => []
  | before, x :: rest => look before x ++ inspect guid look (before ++ [guid x]) rest

variable {guid : α → Guid} {look : List Guid → α → List Defect} {d : Defect} {p : α → Bool}

/-- A defect of items at one place is found at most once. -/
lemma count_inspect_of_place {i : Nat}
    (found : ∀ before x, (look before x).count d = if before.length = i ∧ p x then 1 else 0)
    (before : List Guid) (xs : List α) :
    (inspect guid look before xs).count d =
      if before.length ≤ i ∧ (xs[i - before.length]?).any p then 1 else 0 := by
  induction xs generalizing before with
  | nil => simp [inspect]
  | cons x rest ih =>
      rw [inspect, List.count_append, found, ih, List.length_append, List.length_singleton]
      rcases Nat.lt_trichotomy before.length i with hlt | rfl | hgt
      · have hplace : i - before.length = i - (before.length + 1) + 1 := by omega
        have hhere : before.length ≠ i := by omega
        have hlater : before.length + 1 ≤ i := hlt
        simp [hhere, hlater, Nat.le_of_lt hlt, hplace]
      · have hlater : ¬ before.length + 1 ≤ before.length := Nat.not_succ_le_self _
        simp [hlater]
      · have hhere : before.length ≠ i := by omega
        have hlater : ¬ before.length + 1 ≤ i := by omega
        simp [hhere, hlater, Nat.not_le.mpr hgt]

lemma count_inspect_of_item
    (found : ∀ before x, (look before x).count d = if p x then 1 else 0) (before : List Guid)
    (xs : List α) : (inspect guid look before xs).count d = xs.countP p := by
  induction xs generalizing before with
  | nil => rfl
  | cons x rest ih =>
      rw [inspect, List.count_append, found, ih, List.countP_cons, Nat.add_comm]

lemma count_inspect_eq_zero (found : ∀ before x, (look before x).count d = 0)
    (before : List Guid) (xs : List α) : (inspect guid look before xs).count d = 0 := by
  induction xs generalizing before with
  | nil => rfl
  | cons x rest ih => rw [inspect, List.count_append, found, ih]

/-- A defect of items whose guid has come before is found once for each use of the guid but the
first. -/
lemma count_inspect_of_repeated {k : Guid}
    (found : ∀ before x, (look before x).count d = if guid x = k ∧ k ∈ before then 1 else 0)
    (before : List Guid) (xs : List α) :
    (inspect guid look before xs).count d + (before.count k - 1) =
      before.count k + (xs.map guid).count k - 1 := by
  induction xs generalizing before with
  | nil => simp [inspect]
  | cons x rest ih =>
      have hrest := ih (before ++ [guid x])
      rw [List.count_append] at hrest
      rw [inspect, List.count_append, found, List.map_cons, List.count_cons]
      by_cases hx : guid x = k
      · have hone : [k].count k = 1 := by simp
        rw [hx, hone] at hrest
        by_cases hk : k ∈ before
        · have hpos := List.count_pos_iff.mpr hk
          simp only [hx, hk, and_self, if_true, beq_self_eq_true]
          omega
        · have hzero := List.count_eq_zero.mpr hk
          simp only [hx, hk, and_false, if_false, if_true, beq_self_eq_true]
          omega
      · have hnone : [guid x].count k = 0 := by simp [hx]
        rw [hnone] at hrest
        simp only [hx, false_and, if_false, beq_iff_eq]
        omega

/-- What is found is found in the order of the items, each at an item. -/
lemma exists_places (guid : α → Guid) (look : List Guid → α → List Defect) (before : List Guid)
    (xs : List α) :
    ∃ places : List Nat, places.Pairwise (· ≤ ·) ∧
      List.Forall₂
        (fun i d => ∃ x, xs[i]? = some x ∧ d ∈ look (before ++ (xs.map guid).take i) x)
        places (inspect guid look before xs) := by
  induction xs generalizing before with
  | nil => exact ⟨[], .nil, .nil⟩
  | cons x rest ih =>
      obtain ⟨places, hsorted, hfound⟩ := ih (before ++ [guid x])
      refine ⟨(look before x).map (fun _ => 0) ++ places.map (· + 1), ?_, ?_⟩
      · rw [List.pairwise_append]
        refine ⟨by simp, ?_, ?_⟩
        · simpa [List.pairwise_map] using hsorted
        · intro i hi j _
          obtain ⟨_, -, rfl⟩ := List.mem_map.mp hi
          exact Nat.zero_le j
      · refine List.rel_append ?_ ?_
        · rw [List.forall₂_map_left_iff, List.forall₂_same]
          intro d hd
          exact ⟨x, rfl, by simpa using hd⟩
        · rw [List.forall₂_map_left_iff]
          refine hfound.imp fun i d ⟨y, hy, hd⟩ => ⟨y, hy, ?_⟩
          simpa using hd

end Inspections

namespace Graph

/-! ## What a graph is judged by -/

/-- Some node has the guid. -/
def Names (g : Graph) (guid : Guid) : Prop := ∃ n ∈ g.nodes, n.guid = guid

instance (g : Graph) (guid : Guid) : Decidable (g.Names guid) :=
  inferInstanceAs (Decidable (∃ n ∈ g.nodes, n.guid = guid))

/-- What a graph needs to be run. -/
structure WellFormed (g : Graph) : Prop where
  nodes : g.nodes ≠ []
  nodeGuids : ∀ n ∈ g.nodes, n.guid ≠ ""
  nodeGuids_nodup : (g.nodes.map (·.guid)).Nodup
  behaviours : ∀ n ∈ g.nodes, n.behaviour.isSome
  edgeGuids : ∀ e ∈ g.edges, e.guid ≠ ""
  edgeGuids_nodup : (g.edges.map (·.guid)).Nodup
  ends : ∀ e ∈ g.edges, g.Names e.source ∧ g.Names e.target
  entry : ∀ guid, g.entry = some guid → g.Names guid

/-- How often a defect is to be reported. -/
def occurrences (g : Graph) : Defect → Nat
  | .noNodes => if g.nodes = [] then 1 else 0
  | .emptyNodeGuid i => if (g.nodes[i]?).any fun n => n.guid = "" then 1 else 0
  | .duplicateNodeGuid guid => if guid = "" then 0 else (g.nodes.map (·.guid)).count guid - 1
  | .missingBehaviour i guid =>
    if (g.nodes[i]?).any fun n => n.guid = guid ∧ n.behaviour.isNone then 1 else 0
  | .emptyEdgeGuid i => if (g.edges[i]?).any fun e => e.guid = "" then 1 else 0
  | .duplicateEdgeGuid guid => if guid = "" then 0 else (g.edges.map (·.guid)).count guid - 1
  | .unknownSource edge node =>
    g.edges.countP fun e => e.guid = edge ∧ e.source = node ∧ ¬ g.Names node
  | .unknownTarget edge node =>
    g.edges.countP fun e => e.guid = edge ∧ e.target = node ∧ ¬ g.Names node
  | .unknownEntry guid => if g.entry = some guid ∧ ¬ g.Names guid then 1 else 0

/-- A part of a graph that is inspected. -/
inductive Site where
  | whole
  | node (position : Nat)
  | edge (position : Nat)
  | entry

/-- The order in which the parts of a graph are inspected. -/
def Site.NotAfter : Site → Site → Prop
  | .whole, _ | _, .entry | .node _, .edge _ => True
  | .node i, .node j | .edge i, .edge j => i ≤ j
  | _, _ => False

/-- The defect is one of the part of the graph. -/
inductive Concerns (g : Graph) : Site → Defect → Prop
  | noNodes (none : g.nodes = []) : Concerns g .whole .noNodes
  | emptyNodeGuid {i : Nat} {n : Node} (node : g.nodes[i]? = some n) (empty : n.guid = "") :
    Concerns g (.node i) (.emptyNodeGuid i)
  | duplicateNodeGuid {i : Nat} {n : Node} (node : g.nodes[i]? = some n) (given : n.guid ≠ "")
    (repeated : n.guid ∈ (g.nodes.take i).map (·.guid)) :
    Concerns g (.node i) (.duplicateNodeGuid n.guid)
  | missingBehaviour {i : Nat} {n : Node} (node : g.nodes[i]? = some n)
    (missing : n.behaviour = none) : Concerns g (.node i) (.missingBehaviour i n.guid)
  | emptyEdgeGuid {i : Nat} {e : Edge} (edge : g.edges[i]? = some e) (empty : e.guid = "") :
    Concerns g (.edge i) (.emptyEdgeGuid i)
  | duplicateEdgeGuid {i : Nat} {e : Edge} (edge : g.edges[i]? = some e) (given : e.guid ≠ "")
    (repeated : e.guid ∈ (g.edges.take i).map (·.guid)) :
    Concerns g (.edge i) (.duplicateEdgeGuid e.guid)
  | unknownSource {i : Nat} {e : Edge} (edge : g.edges[i]? = some e)
    (unknown : ¬ g.Names e.source) : Concerns g (.edge i) (.unknownSource e.guid e.source)
  | unknownTarget {i : Nat} {e : Edge} (edge : g.edges[i]? = some e)
    (unknown : ¬ g.Names e.target) : Concerns g (.edge i) (.unknownTarget e.guid e.target)
  | unknownEntry {guid : Guid} (entry : g.entry = some guid) (unknown : ¬ g.Names guid) :
    Concerns g .entry (.unknownEntry guid)

/-! ## The two passes -/

/-- What is found at a node. -/
def lookAtNode (before : List Guid) (n : Node) : List Defect :=
  guidDefect .emptyNodeGuid .duplicateNodeGuid before n.guid ++
    if n.behaviour.isNone then [.missingBehaviour before.length n.guid] else []

/-- What is found at an edge. -/
def lookAtEdge (g : Graph) (before : List Guid) (e : Edge) : List Defect :=
  guidDefect .emptyEdgeGuid .duplicateEdgeGuid before e.guid ++
    (if g.contains e.source then [] else [.unknownSource e.guid e.source]) ++
    (if g.contains e.target then [] else [.unknownTarget e.guid e.target])

variable (g : Graph)

lemma nodeDefects_eq_inspect (before : List Guid) (nodes : List Node) :
    nodeDefects before nodes = inspect Node.guid lookAtNode before nodes := by
  induction nodes generalizing before with
  | nil => rfl
  | cons n rest ih => simp only [nodeDefects, inspect, lookAtNode, ih]

lemma edgeDefects_eq_inspect (before : List Guid) (edges : List Edge) :
    g.edgeDefects before edges = inspect Edge.guid g.lookAtEdge before edges := by
  induction edges generalizing before with
  | nil => rfl
  | cons e rest ih => simp only [edgeDefects, inspect, lookAtEdge, ih]

lemma contains_eq_decide (guid : Guid) : g.contains guid = decide (g.Names guid) :=
  Bool.eq_iff_iff.mpr ((g.contains_iff guid).trans decide_eq_true_iff.symm)

lemma guidDefect_eq (empty : Nat → Defect) (duplicate : Guid → Defect) (before : List Guid)
    (guid : Guid) :
    guidDefect empty duplicate before guid =
      if guid = "" then [empty before.length]
      else if guid ∈ before then [duplicate guid] else [] := by
  simp [guidDefect]

/-- How often a defect is found among the nodes. -/
lemma count_nodeDefects (nodes : List Node) (d : Defect) :
    (nodeDefects [] nodes).count d =
      match d with
      | .emptyNodeGuid i => if (nodes[i]?).any fun n => n.guid = "" then 1 else 0
      | .duplicateNodeGuid guid => if guid = "" then 0 else (nodes.map (·.guid)).count guid - 1
      | .missingBehaviour i guid =>
        if (nodes[i]?).any fun n => n.guid = guid ∧ n.behaviour.isNone then 1 else 0
      | _ => 0 := by
  rw [nodeDefects_eq_inspect]
  cases d with
  | emptyNodeGuid i =>
      have hfound (before : List Guid) (n : Node) :
          (lookAtNode before n).count (.emptyNodeGuid i) =
            if before.length = i ∧ decide (n.guid = "") then 1 else 0 := by
        grind [lookAtNode, guidDefect_eq]
      simpa using count_inspect_of_place hfound [] nodes
  -- A repetition is counted from the second occurrence on, which is where the subtraction comes
  -- from.
  | duplicateNodeGuid guid =>
      by_cases hguid : guid = ""
      · simp only [hguid, if_true]
        exact count_inspect_eq_zero (by grind [lookAtNode, guidDefect_eq]) [] nodes
      · have hfound (before : List Guid) (n : Node) :
            (lookAtNode before n).count (.duplicateNodeGuid guid) =
              if n.guid = guid ∧ guid ∈ before then 1 else 0 := by
          grind [lookAtNode, guidDefect_eq]
        simpa [hguid] using count_inspect_of_repeated hfound [] nodes
  | missingBehaviour i guid =>
      have hfound (before : List Guid) (n : Node) :
          (lookAtNode before n).count (.missingBehaviour i guid) =
            if before.length = i ∧ decide (n.guid = guid ∧ n.behaviour.isNone) then 1 else 0 := by
        grind [lookAtNode, guidDefect_eq]
      simpa using count_inspect_of_place hfound [] nodes
  | _ => exact count_inspect_eq_zero (by grind [lookAtNode, guidDefect_eq]) [] nodes

/-- How often a defect is found among the edges. -/
lemma count_edgeDefects (edges : List Edge) (d : Defect) :
    (g.edgeDefects [] edges).count d =
      match d with
      | .emptyEdgeGuid i => if (edges[i]?).any fun e => e.guid = "" then 1 else 0
      | .duplicateEdgeGuid guid => if guid = "" then 0 else (edges.map (·.guid)).count guid - 1
      | .unknownSource edge node =>
        edges.countP fun e => e.guid = edge ∧ e.source = node ∧ ¬ g.Names node
      | .unknownTarget edge node =>
        edges.countP fun e => e.guid = edge ∧ e.target = node ∧ ¬ g.Names node
      | _ => 0 := by
  rw [edgeDefects_eq_inspect]
  cases d with
  | emptyEdgeGuid i =>
      have hfound (before : List Guid) (e : Edge) :
          (g.lookAtEdge before e).count (.emptyEdgeGuid i) =
            if before.length = i ∧ decide (e.guid = "") then 1 else 0 := by
        grind [lookAtEdge, guidDefect_eq]
      simpa using count_inspect_of_place hfound [] edges
  | duplicateEdgeGuid guid =>
      by_cases hguid : guid = ""
      · simp only [hguid, if_true]
        exact count_inspect_eq_zero (by grind [lookAtEdge, guidDefect_eq]) [] edges
      · have hfound (before : List Guid) (e : Edge) :
            (g.lookAtEdge before e).count (.duplicateEdgeGuid guid) =
              if e.guid = guid ∧ guid ∈ before then 1 else 0 := by
          grind [lookAtEdge, guidDefect_eq]
        simpa [hguid] using count_inspect_of_repeated hfound [] edges
  | unknownSource edge node =>
      have hfound (before : List Guid) (e : Edge) :
          (g.lookAtEdge before e).count (.unknownSource edge node) =
            if decide (e.guid = edge ∧ e.source = node ∧ ¬ g.Names node) then 1 else 0 := by
        grind [lookAtEdge, guidDefect_eq, contains_eq_decide]
      exact count_inspect_of_item hfound [] edges
  | unknownTarget edge node =>
      have hfound (before : List Guid) (e : Edge) :
          (g.lookAtEdge before e).count (.unknownTarget edge node) =
            if decide (e.guid = edge ∧ e.target = node ∧ ¬ g.Names node) then 1 else 0 := by
        grind [lookAtEdge, guidDefect_eq, contains_eq_decide]
      exact count_inspect_of_item hfound [] edges
  | _ => exact count_inspect_eq_zero (by grind [lookAtEdge, guidDefect_eq]) [] edges

lemma count_noNodes (d : Defect) :
    (if g.nodes.isEmpty then [Defect.noNodes] else []).count d =
      if d = .noNodes ∧ g.nodes = [] then 1 else 0 := by
  grind

lemma count_entryDefects (d : Defect) :
    g.entryDefects.count d =
      match d with
      | .unknownEntry guid => if g.entry = some guid ∧ ¬ g.Names guid then 1 else 0
      | _ => 0 := by
  unfold entryDefects
  grind [contains_eq_decide]

lemma count_defects (d : Defect) : g.defects.count d = g.occurrences d := by
  unfold defects
  simp only [List.count_append, count_noNodes, count_nodeDefects, count_edgeDefects,
    count_entryDefects]
  cases d <;> simp [occurrences]

/-! ## The parts that defects are found at -/

/-- A defect that is found at a node is one of the node. -/
lemma concerns_node {i : Nat} {n : Node} {d : Defect} (hn : g.nodes[i]? = some n)
    (hd : d ∈ lookAtNode ((g.nodes.take i).map (·.guid)) n) : g.Concerns (.node i) d := by
  have hlength : (g.nodes.take i).length = i := by
    have := List.getElem?_eq_some_iff.mp hn
    grind
  rw [lookAtNode, guidDefect_eq, List.length_map, hlength, List.mem_append] at hd
  rcases hd with hguid | hbehaviour
  · split_ifs at hguid with hempty hrepeated
    · obtain rfl := List.mem_singleton.mp hguid
      exact .emptyNodeGuid hn hempty
    · obtain rfl := List.mem_singleton.mp hguid
      exact .duplicateNodeGuid hn hempty hrepeated
    · cases hguid
  · split_ifs at hbehaviour with hmissing
    · obtain rfl := List.mem_singleton.mp hbehaviour
      exact .missingBehaviour hn (Option.isNone_iff_eq_none.mp hmissing)
    · cases hbehaviour

/-- A defect that is found at an edge is one of the edge. -/
lemma concerns_edge {i : Nat} {e : Edge} {d : Defect} (he : g.edges[i]? = some e)
    (hd : d ∈ g.lookAtEdge ((g.edges.take i).map (·.guid)) e) : g.Concerns (.edge i) d := by
  have hlength : (g.edges.take i).length = i := by
    have := List.getElem?_eq_some_iff.mp he
    grind
  simp only [lookAtEdge, guidDefect_eq, List.length_map, hlength, contains_eq_decide,
    decide_eq_true_eq, List.mem_append] at hd
  rcases hd with (hguid | hsource) | htarget
  · split_ifs at hguid with hempty hrepeated
    · obtain rfl := List.mem_singleton.mp hguid
      exact .emptyEdgeGuid he hempty
    · obtain rfl := List.mem_singleton.mp hguid
      exact .duplicateEdgeGuid he hempty hrepeated
    · cases hguid
  · split_ifs at hsource with hknown
    · cases hsource
    · obtain rfl := List.mem_singleton.mp hsource
      exact .unknownSource he hknown
  · split_ifs at htarget with hknown
    · cases htarget
    · obtain rfl := List.mem_singleton.mp htarget
      exact .unknownTarget he hknown

/-- A defect that is found at the entry is one of the entry. -/
lemma concerns_entry {d : Defect} (hd : d ∈ g.entryDefects) : g.Concerns .entry d := by
  unfold entryDefects at hd
  split at hd
  · next guid hentry =>
      rw [contains_eq_decide] at hd
      split_ifs at hd with hknown
      · cases hd
      · obtain rfl := List.mem_singleton.mp hd
        exact .unknownEntry hentry (by simpa using hknown)
  · cases hd

/-- The defects are found in the order of the parts of the graph, each at the part it is one of. -/
lemma exists_sites :
    ∃ sites : List Site, sites.Pairwise Site.NotAfter ∧
      List.Forall₂ g.Concerns sites g.defects := by
  obtain ⟨nodes, hnodes, hatNodes⟩ := exists_places Node.guid lookAtNode [] g.nodes
  obtain ⟨edges, hedges, hatEdges⟩ := exists_places Edge.guid g.lookAtEdge [] g.edges
  rw [← nodeDefects_eq_inspect] at hatNodes
  rw [← edgeDefects_eq_inspect] at hatEdges
  -- The four groups follow each other in this order, so only the order inside a group is left.
  refine ⟨(if g.nodes.isEmpty then [.whole] else []) ++ nodes.map .node ++ edges.map .edge ++
    g.entryDefects.map fun _ => .entry, ?_, ?_⟩
  · split_ifs <;> simp [List.pairwise_append, List.pairwise_map, Site.NotAfter, hnodes, hedges]
    all_goals grind [Site.NotAfter]
  · unfold defects
    refine List.rel_append (List.rel_append (List.rel_append ?_ ?_) ?_) ?_
    · split_ifs with hnone
      · exact .cons (.noNodes (List.isEmpty_iff.mp hnone)) .nil
      · exact .nil
    · rw [List.forall₂_map_left_iff]
      refine hatNodes.imp fun i d ⟨n, hn, hd⟩ => g.concerns_node hn ?_
      simpa [List.map_take] using hd
    · rw [List.forall₂_map_left_iff]
      refine hatEdges.imp fun i d ⟨e, he, hd⟩ => g.concerns_edge he ?_
      simpa [List.map_take] using hd
    · rw [List.forall₂_map_left_iff, List.forall₂_same]
      exact fun d hd => g.concerns_entry hd

/-! ## Graphs that can be run -/

variable {g}

/-- The guids of a list are used once if none is empty and none is reported to be used again. -/
lemma nodup_of_repeats {guids : List Guid} (given : "" ∉ guids)
    (single : ∀ guid, (if guid = "" then 0 else guids.count guid - 1) = 0) : guids.Nodup := by
  refine List.nodup_iff_count_le_one.mpr fun guid => ?_
  have hsingle := single guid
  split_ifs at hsingle with hempty
  · rw [hempty, List.count_eq_zero_of_not_mem given]
    exact Nat.zero_le 1
  · omega

/-- Nothing is to be reported of a graph that is well formed. -/
lemma WellFormed.occurrences_eq_zero (well : g.WellFormed) (d : Defect) : g.occurrences d = 0 := by
  cases d with
  | noNodes => simp [occurrences, well.nodes]
  | emptyNodeGuid i =>
      simpa [occurrences, Option.any_eq_false] using
        fun n hn => well.nodeGuids n (List.mem_of_getElem? hn)
  | duplicateNodeGuid guid =>
      have hsingle := List.nodup_iff_count_le_one.mp well.nodeGuids_nodup guid
      simp [occurrences, Nat.sub_eq_zero_of_le hsingle]
  | missingBehaviour i guid =>
      simpa [occurrences, Option.any_eq_false, ← Option.isSome_iff_ne_none] using
        fun n hn _ => well.behaviours n (List.mem_of_getElem? hn)
  | emptyEdgeGuid i =>
      simpa [occurrences, Option.any_eq_false] using
        fun e he => well.edgeGuids e (List.mem_of_getElem? he)
  | duplicateEdgeGuid guid =>
      have hsingle := List.nodup_iff_count_le_one.mp well.edgeGuids_nodup guid
      simp [occurrences, Nat.sub_eq_zero_of_le hsingle]
  | unknownSource edge node =>
      simpa [occurrences] using fun e he _ hnode => hnode ▸ (well.ends e he).1
  | unknownTarget edge node =>
      simpa [occurrences] using fun e he _ hnode => hnode ▸ (well.ends e he).2
  | unknownEntry guid => simpa [occurrences] using well.entry guid

/-- A graph of which nothing is to be reported is well formed. -/
lemma wellFormed_of_occurrences (none : ∀ d, g.occurrences d = 0) : g.WellFormed := by
  have hnodeGuids : ∀ n ∈ g.nodes, n.guid ≠ "" := by
    intro n hn
    obtain ⟨i, hi⟩ := List.getElem?_of_mem hn
    simpa [occurrences, hi] using none (.emptyNodeGuid i)
  have hedgeGuids : ∀ e ∈ g.edges, e.guid ≠ "" := by
    intro e he
    obtain ⟨i, hi⟩ := List.getElem?_of_mem he
    simpa [occurrences, hi] using none (.emptyEdgeGuid i)
  refine
    { nodes := by simpa [occurrences] using none .noNodes
      nodeGuids := hnodeGuids
      nodeGuids_nodup := nodup_of_repeats (by simpa using hnodeGuids)
        fun guid => none (.duplicateNodeGuid guid)
      behaviours := ?_
      edgeGuids := hedgeGuids
      edgeGuids_nodup := nodup_of_repeats (by simpa using hedgeGuids)
        fun guid => none (.duplicateEdgeGuid guid)
      ends := fun e he => ⟨?_, ?_⟩
      entry := fun guid hguid => by simpa [occurrences, hguid] using none (.unknownEntry guid) }
  · intro n hn
    obtain ⟨i, hi⟩ := List.getElem?_of_mem hn
    simpa [occurrences, hi, Option.isSome_iff_ne_none] using none (.missingBehaviour i n.guid)
  · have hsource := none (.unknownSource e.guid e.source)
    rw [occurrences, List.countP_eq_zero] at hsource
    simpa using hsource e he
  · have htarget := none (.unknownTarget e.guid e.target)
    rw [occurrences, List.countP_eq_zero] at htarget
    simpa using htarget e he

lemma defects_eq_nil_iff (g : Graph) : g.defects = [] ↔ g.WellFormed := by
  constructor
  · intro hdefects
    refine wellFormed_of_occurrences fun d => ?_
    rw [← count_defects, hdefects, List.count_nil]
  · intro well
    refine List.eq_nil_iff_forall_not_mem.mpr fun d => List.count_eq_zero.mp ?_
    rw [count_defects, well.occurrences_eq_zero]

/-- **The inspection accepts the graphs that can be run and reports every defect of the others
once.**  No defects are found exactly in the graphs that are well formed; every defect is found
as often as it occurs; and the list follows the parts of the graph, the nodes in their order
before the edges in theirs and the entry last, with each defect at the part that has it. -/
theorem defects_reported_once (g : Graph) :
    (g.defects = [] ↔ g.WellFormed) ∧
      (∀ d, g.defects.count d = g.occurrences d) ∧
      ∃ sites : List Site, sites.Pairwise Site.NotAfter ∧
        List.Forall₂ g.Concerns sites g.defects :=
  ⟨g.defects_eq_nil_iff, g.count_defects, g.exists_sites⟩

/-- An empty guid is reported at each place, and is not taken for one that is used twice. -/
example :
    (((empty.addNode ⟨"", {}, none⟩).addNode ⟨"", {}, none⟩).setEntry "hall").defects =
      [.emptyNodeGuid 0, .missingBehaviour 0 "", .emptyNodeGuid 1, .missingBehaviour 1 "",
        .unknownEntry "hall"] := by
  decide +kernel

end Graph

end WorkflowGraph

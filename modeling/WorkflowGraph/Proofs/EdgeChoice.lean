import Mathlib.Data.Prod.Lex
import WorkflowGraph.Proofs.Coherence

/-!
# The edge that is taken is the best one

A step of resolution tries the ports of the current node one after the other, and then what is
left (`Machine.bestEdge`).  Seen from outside there is only an order: an edge of an earlier port
comes before one of a later port, an edge of a port that the node does not declare comes behind
both, and among the edges of one port the one that was authored first comes first.  The edge that
is taken is the least one, in this order, of those that leave the current node and whose condition
holds (`Machine.bestEdge_least`), and some edge is taken whenever there is one to take.

Ports are compared by what their authored names stand for (`SamePort`).  A port may be declared
more than once; then its first place counts, since the search for a later one has failed before.
-/

namespace WorkflowGraph

/-! ## The order of the edges -/

namespace Behaviour

/-- The place of a port among those of the node, behind all of them if the node does not declare
it. -/
def portRank (b : Behaviour) (port : String) : Nat := b.resolvedPorts.idxOf port

lemma portRank_of_undeclared {b : Behaviour} {port : String} (h : port ∉ b.resolvedPorts) :
    b.portRank port = b.resolvedPorts.length :=
  List.idxOf_eq_length h

/-- The rank is the place where the port is declared for the first time. -/
lemma portRank_of_first {b : Behaviour} {port : String} {before after : List String}
    (h : b.resolvedPorts = before ++ port :: after) (hfirst : port ∉ before) :
    b.portRank port = before.length := by
  rw [portRank, h, List.idxOf_append_of_notMem hfirst, List.idxOf_cons_self, Nat.add_zero]

lemma mem_of_portRank_lt {b : Behaviour} {port : String} {before after : List String}
    (h : b.resolvedPorts = before ++ after) (hlt : b.portRank port < before.length) :
    port ∈ before := by
  by_contra hnot
  rw [portRank, h, List.idxOf_append_of_notMem hnot] at hlt
  omega

end Behaviour

/-- Two authored names stand for the same port: they are equal, or each of them is empty or the
name of the default port. -/
def SamePort (p q : String) : Prop := p = q ∨ p ∈ ["", "Next"] ∧ q ∈ ["", "Next"]

instance (p q : String) : Decidable (SamePort p q) := inferInstanceAs (Decidable (_ ∨ _ ∧ _))

lemma portNamed_of_mem {p : String} (h : p ∈ ["", "Next"]) : portNamed p = defaultPort := by
  rcases List.mem_cons.mp h with rfl | hnext
  · rfl
  · rw [List.mem_singleton.mp hnext]
    rfl

lemma portNamed_of_notMem {p : String} (h : p ∉ ["", "Next"]) : portNamed p = p := by
  have hne : p ≠ "" := fun hempty => h (hempty ▸ List.mem_cons_self)
  simp [portNamed, hne]

lemma portNamed_mem_iff {p : String} : portNamed p ∈ ["", "Next"] ↔ p ∈ ["", "Next"] := by
  by_cases hp : p ∈ ["", "Next"]
  · simp [portNamed_of_mem hp, defaultPort, hp]
  · rw [portNamed_of_notMem hp]

/-- Two authored names name one port exactly if they stand for the same one. -/
lemma portNamed_eq_portNamed {p q : String} : portNamed p = portNamed q ↔ SamePort p q := by
  constructor
  · intro hequal
    have hboth : p ∈ ["", "Next"] ↔ q ∈ ["", "Next"] := by
      rw [← portNamed_mem_iff, hequal, portNamed_mem_iff]
    by_cases hp : p ∈ ["", "Next"]
    · exact .inr ⟨hp, hboth.mp hp⟩
    · rw [portNamed_of_notMem hp, portNamed_of_notMem (hboth.not.mp hp)] at hequal
      exact .inl hequal
  · rintro (rfl | ⟨hp, hq⟩)
    · rfl
    · rw [portNamed_of_mem hp, portNamed_of_mem hq]

/-- The rank of an authored port, told from the authored names alone. -/
lemma Behaviour.portRank_portNamed (b : Behaviour) (p : String) :
    b.portRank (portNamed p) =
      (if b.ports = [] then ["Next"] else b.ports).findIdx fun q => decide (SamePort p q) := by
  have hsame : ∀ q, (portNamed q == portNamed p) = decide (SamePort p q) := by
    intro q
    rw [Bool.eq_iff_iff, beq_iff_eq, decide_eq_true_iff, ← portNamed_eq_portNamed, eq_comm]
  unfold portRank resolvedPorts
  by_cases hports : b.ports = []
  · have hnext : (defaultPort == portNamed p) = decide (SamePort p "Next") := hsame "Next"
    simp only [hports, List.isEmpty_nil, if_true, List.idxOf, List.findIdx_cons, List.findIdx_nil,
      hnext]
  · have hsome : b.ports.isEmpty = false := by simpa using hports
    simp only [hsome, hports, if_false, Bool.false_eq_true, List.idxOf, List.findIdx_map,
      Function.comp_def, hsame]

/-- The edge at a place of the authored list leaves the node, and can be taken: its condition
holds, if it has one. -/
structure Graph.Offers (g : Graph) (n : Guid) (s : Session) (i : Nat) (e : Edge) : Prop where
  authored : g.edges[i]? = some e
  leaves : e.source = n
  holds : ∀ c, e.condition = some c → c.holds s = true

/-- What decides between two edges: the port, and for the same port the place in the authored
list. -/
def Edge.precedence (b : Behaviour) (i : Nat) (e : Edge) : Nat ×ₗ Nat :=
  toLex (b.portRank e.port, i)

namespace Graph

variable {g : Graph} {n : Guid} {s : Session} {i j : Nat} {e e' : Edge}

lemma passes_iff : e.passes s = true ↔ ∀ c, e.condition = some c → c.holds s = true := by
  simp only [Edge.passes, Option.all_eq_true]

lemma exists_offers_iff :
    (∃ i, g.Offers n s i e) ↔ e ∈ g.outgoing n ∧ e.passes s = true := by
  simp only [outgoing, List.mem_filter, beq_iff_eq, passes_iff]
  constructor
  · rintro ⟨i, hi, hleaves, hholds⟩
    exact ⟨⟨List.mem_of_getElem? hi, hleaves⟩, hholds⟩
  · rintro ⟨⟨hmem, hleaves⟩, hholds⟩
    obtain ⟨i, hi⟩ := List.getElem?_of_mem hmem
    exact ⟨i, hi, hleaves, hholds⟩

/-- The search through a part of the outgoing edges finds the first that can be taken. -/
lemma offers_of_find? {keep : Edge → Bool}
    (h : ((g.outgoing n).filter keep).find? (fun e => e.passes s) = some e) :
    ∃ i, g.Offers n s i e ∧ keep e = true ∧
      ∀ j e', g.Offers n s j e' → keep e' = true → i ≤ j := by
  rw [outgoing, List.find?_filter, List.find?_filter, List.find?_eq_some_iff_getElem] at h
  obtain ⟨hgood, i, hlt, hi, hfirst⟩ := h
  simp only [Bool.decide_and, Bool.decide_eq_true, Bool.and_eq_true, decide_eq_true_eq,
    beq_iff_eq] at hgood
  obtain ⟨hleaves, hkeep, hpasses⟩ := hgood
  refine ⟨i, ⟨hi ▸ List.getElem?_eq_getElem hlt, hleaves, passes_iff.mp hpasses⟩, hkeep, ?_⟩
  intro j e' hoffers hkeeps
  by_contra hbefore
  obtain ⟨hj, rfl⟩ := List.getElem?_eq_some_iff.mp hoffers.authored
  have hfails := hfirst j (by omega)
  simp [hoffers.leaves, hkeeps, passes_iff.mpr hoffers.holds] at hfails

lemma not_offers_of_find? {keep : Edge → Bool}
    (h : ((g.outgoing n).filter keep).find? (fun e => e.passes s) = none)
    (hoffers : g.Offers n s i e) : keep e = false := by
  obtain ⟨hmem, hpasses⟩ := exists_offers_iff.mp ⟨i, hoffers⟩
  by_contra hkeep
  rw [Bool.not_eq_false] at hkeep
  exact List.find?_eq_none.mp h e (List.mem_filter.mpr ⟨hmem, hkeep⟩) hpasses

end Graph

namespace Machine

open WorkflowGraph.Graph

variable {m : Machine} {n : Guid} {b : Behaviour} {e : Edge}

/-! ## The search -/

/-- The search among the declared ports finds the least edge: no edge of an earlier port can be
taken, and at its own port the edge is the first. -/
lemma least_of_declared (hfound : (b.resolvedPorts.findSome? fun port =>
      ((m.graph.outgoing n).filter fun e => e.port == port).find? fun e => e.passes m.session) =
        some e) :
    ∃ i, m.graph.Offers n m.session i e ∧ ∀ j e', m.graph.Offers n m.session j e' →
      e.precedence b i ≤ e'.precedence b j := by
  obtain ⟨before, port, after, hports, hfind, hearlier⟩ := List.findSome?_eq_some_iff.mp hfound
  obtain ⟨i, hoffers, hport, hfirst⟩ := offers_of_find? hfind
  obtain rfl : e.port = port := by simpa using hport
  -- Had an earlier port an edge to offer, the search would have stopped there.
  have hnone : ∀ j e', m.graph.Offers n m.session j e' → e'.port ∉ before := by
    intro j e' hother hmem
    have hfails := not_offers_of_find? (hearlier e'.port hmem) hother
    simp at hfails
  have hrank : b.portRank e.port = before.length :=
    b.portRank_of_first hports (hnone i e hoffers)
  refine ⟨i, hoffers, fun j e' hother => ?_⟩
  have hnotBelow : ¬ b.portRank e'.port < before.length := fun hlt =>
    hnone j e' hother (b.mem_of_portRank_lt hports hlt)
  rw [Edge.precedence, Edge.precedence, Prod.Lex.toLex_le_toLex, hrank]
  -- At the own port the order of the edges decides; another port of the same rank would be declared
  -- at the same place.
  by_cases hsame : e'.port = e.port
  · exact .inr ⟨by rw [hsame, hrank], hfirst j e' hother (by simpa using hsame)⟩
  · refine .inl (by_contra fun hle => hsame ?_)
    have hequal : b.portRank e'.port = b.portRank e.port := by omega
    have hdeclared : e.port ∈ b.resolvedPorts := by simp [hports]
    exact (List.idxOf_inj hdeclared).mp hequal.symm |>.symm

/-- The search among what is left finds the least edge, if no edge of a declared port can be
taken: all the edges that can be taken are of the last rank. -/
lemma least_of_undeclared (hnone : (b.resolvedPorts.findSome? fun port =>
      ((m.graph.outgoing n).filter fun e => e.port == port).find? fun e => e.passes m.session) =
        none)
    (hfound : (((m.graph.outgoing n).filter fun e => !b.resolvedPorts.contains e.port).find?
      fun e => e.passes m.session) = some e) :
    ∃ i, m.graph.Offers n m.session i e ∧ ∀ j e', m.graph.Offers n m.session j e' →
      e.precedence b i ≤ e'.precedence b j := by
  rw [List.findSome?_eq_none_iff] at hnone
  have hundeclared : ∀ j e', m.graph.Offers n m.session j e' → e'.port ∉ b.resolvedPorts := by
    intro j e' hother hmem
    have hfails := not_offers_of_find? (hnone e'.port hmem) hother
    simp at hfails
  obtain ⟨i, hoffers, -, hfirst⟩ := offers_of_find? hfound
  refine ⟨i, hoffers, fun j e' hother => ?_⟩
  have hplace : i ≤ j := hfirst j e' hother (by simpa using hundeclared j e' hother)
  rw [Edge.precedence, Edge.precedence, Prod.Lex.toLex_le_toLex,
    b.portRank_of_undeclared (hundeclared i e hoffers),
    b.portRank_of_undeclared (hundeclared j e' hother)]
  exact .inr ⟨rfl, hplace⟩

lemma least_of_bestEdge (hn : m.current = some n) (hb : m.graph.behaviour? n = some b)
    (h : m.bestEdge = some e) :
    ∃ i, m.graph.Offers n m.session i e ∧ ∀ j e', m.graph.Offers n m.session j e' →
      e.precedence b i ≤ e'.precedence b j := by
  rw [bestEdge_of_behaviour? hn hb] at h
  rcases Option.or_eq_some_iff.mp h with hdeclared | ⟨hnone, hfound⟩
  · exact least_of_declared hdeclared
  · exact least_of_undeclared hnone hfound

lemma isSome_bestEdge_iff (hn : m.current = some n) (hb : m.graph.behaviour? n = some b) :
    m.bestEdge.isSome = true ↔ ∃ e ∈ m.graph.outgoing n, e.passes m.session = true := by
  rw [← not_iff_not, Bool.not_eq_true, Option.isSome_eq_false_iff, Option.isNone_iff_eq_none,
    bestEdge_eq_none_iff hn hb]
  simp

/-- **The best edge is taken, and none is missed.**  Take a machine at a node that can be called,
whatever ports the node declares, whatever edges the graph has and whatever the session is.  Then:

* an edge is chosen exactly if some edge that leaves the node can be taken;
* the chosen edge is the least one of these, first by the place of its port among those that the
  node declares, where every undeclared port has the last place, and then by its place in the
  authored list of edges;
* the place of a port follows from the authored names: a node that declares no port counts as
  declaring `Next`, the empty name and `Next` are the same port, and all other names are the same
  only if they are equal. -/
theorem bestEdge_least (hn : m.current = some n) (hb : m.graph.behaviour? n = some b) :
    (m.bestEdge.isSome = true ↔ ∃ i e, m.graph.Offers n m.session i e) ∧
    (∀ e, m.bestEdge = some e ↔
      ∃ i, m.graph.Offers n m.session i e ∧ ∀ j e', m.graph.Offers n m.session j e' →
        e.precedence b i ≤ e'.precedence b j) ∧
    ∀ guid source p target, b.portRank (Edge.make guid source p target).port =
      (if b.ports = [] then ["Next"] else b.ports).findIdx fun q => decide (SamePort p q) := by
  have hsome : m.bestEdge.isSome = true ↔ ∃ i e, m.graph.Offers n m.session i e := by
    rw [isSome_bestEdge_iff hn hb, exists_comm]
    simp only [exists_offers_iff]
  refine ⟨hsome, fun e => ⟨least_of_bestEdge hn hb, ?_⟩, fun _ _ p _ => b.portRank_portNamed p⟩
  -- a least edge is the one that is found: they have the same place
  rintro ⟨i, hoffers, hleast⟩
  obtain ⟨found, hfound⟩ := Option.isSome_iff_exists.mp (hsome.mpr ⟨i, e, hoffers⟩)
  obtain ⟨j, hfoundOffers, hfoundLeast⟩ := least_of_bestEdge hn hb hfound
  have hequal : e.precedence b i = found.precedence b j :=
    le_antisymm (hleast j found hfoundOffers) (hfoundLeast i e hoffers)
  obtain ⟨-, hplace⟩ := Prod.mk.inj (toLex_inj.mp hequal)
  have hedge : some e = some found := by
    rw [← hoffers.authored, ← hfoundOffers.authored, hplace]
  rw [hfound, hedge]

/-! ### A fork with a port that is declared twice -/

/-- Leads to four sides of a fork.  The second edge never passes. -/
def forkEdges : List Edge :=
  [.make "stray" "fork" "Aside" "field",
    (Edge.make "shut" "fork" "Next" "gate").guardedBy (some ⟨"never", fun _ => false⟩),
    .make "late" "fork" "Right" "river", .make "first" "fork" "" "hill"]

/-- A fork that declares the default port, under its empty name, then another port, and the
default port again. -/
def fork : Behaviour := { typeName := "fork", ports := ["", "Right", "Next"] }

def atFork : Machine :=
  let graph := Graph.assemble [{ guid := "fork", behaviour := some fork }] forkEdges none []
  { Machine.create graph .alone with current := some "fork" }

/-- At the fork the edge is taken that was authored last: the undeclared port and the second one
come after the default port, and the other edge of the default port does not pass. -/
theorem bestEdge_least_fork :
    atFork.current = some "fork" ∧ atFork.graph.behaviour? "fork" = some fork ∧
      atFork.bestEdge = some (.make "first" "fork" "" "hill") := by
  have hfork : atFork.graph.behaviour? "fork" = some fork := rfl
  obtain ⟨-, hbest, -⟩ := bestEdge_least rfl hfork
  refine ⟨rfl, hfork, (hbest _).mpr ⟨3, ⟨rfl, rfl, by rintro _ ⟨⟩⟩, ?_⟩⟩
  rintro j e' ⟨hauthored, -, hholds⟩
  match j, hauthored with
  | 0, rfl => decide +kernel
  | 1, rfl => cases hholds _ rfl
  | 2, rfl => decide +kernel
  | 3, rfl => exact le_rfl

end Machine
end WorkflowGraph

/-!
# Identifiers

Nodes and edges are known by texts that an author chose.  Whoever connects nodes without
choosing a guid gets a generated one, of the usual length of 21 characters.  Generated guids
come from a source, which the host chooses so that no author uses its guids.
-/

namespace WorkflowGraph

/-- The identifier of a node or an edge. -/
abbrev Guid := String

namespace Guid

/-- The length of a generated guid. -/
def generatedLength : Nat := 21

/-- The numeral of a number, filled up with zeros in front. -/
def filled (width n : Nat) : List Char :=
  let digits := Nat.toDigits 10 n
  List.replicate (width - digits.length) '0' ++ digits

/-- What all guids of a source begin with. -/
def stem (source : Nat) : String := String.ofList (filled 11 source)

/-- The guid of a source with the given number. -/
def generated (source n : Nat) : Guid :=
  String.ofList ((stem source).toList ++ filled (generatedLength - (stem source).length) n)

/-- Guids in increasing order, each of them once. -/
def sorted (guids : List Guid) : List Guid :=
  (guids.mergeSort fun a b => decide (a ≤ b)).eraseReps

end Guid

end WorkflowGraph

import Std.Data.ExtTreeMap
import WorkflowGraph.Decimal.Layout
import WorkflowGraph.Text.Quoted

/-!
# Seeds

A seed is a value of one of the four types that an author can write down.  Keyed seeds, called
entries, make up the blackboard that a run starts from: the defaults of a graph, with the
overrides of the host laid over them.
-/

namespace WorkflowGraph

/-- A value that can seed a blackboard. -/
inductive Seed where
  | int (n : Int32)
  | float (x : Float32)
  | bool (b : Bool)
  | string (s : String)

/-- A seed under a key. -/
structure Entry where
  key : String
  value : Seed

namespace Seed

/-- The name of the type of a seed. -/
def kind : Seed → String
  | .int _ => "int"
  | .float _ => "float"
  | .bool _ => "bool"
  | .string _ => "string"

/-- The seed as a number, if it is numeric. -/
def number? : Seed → Option Float
  | .int n => some (.ofInt n.toInt)
  | .float x => some (Decimal.widen x)
  | .bool _ | .string _ => none

/-- The seed as it is shown to people. -/
def display : Seed → String
  | .int n => toString n.toInt
  | .float x => Decimal.plainSingle x
  | .bool b => if b then "true" else "false"
  | .string s => Text.quoted s

end Seed

namespace Entry

/-- Entries that are being merged, and the place of each key among them. -/
structure Merging where
  entries : List Entry
  places : Std.ExtTreeMap String Nat
  places_eq : ∀ key, places[key]? = entries.findIdx? fun e => e.key == key

namespace Merging

def empty : Merging where
  entries := []
  places := ∅
  places_eq := by simp

/-- Gives the key at a place another value. -/
def revalue (m : Merging) (i : Nat) (value : Seed) : Merging where
  entries := m.entries.modify i fun x => { x with value }
  places := m.places
  places_eq := by
    intro key
    rw [m.places_eq]
    have hkeys : (m.entries.modify i fun x => { x with value }).map (·.key) =
        m.entries.map (·.key) := by
      apply List.ext_getElem?
      intro j
      rw [List.getElem?_map, List.getElem?_map, List.getElem?_modify]
      cases m.entries[j]? with
      | none => rfl
      | some x => by_cases h : i = j <;> simp [h]
    have hfind := congrArg (List.findIdx? (· == key)) hkeys
    rw [List.findIdx?_map, List.findIdx?_map] at hfind
    exact hfind.symm

/-- Adds an entry with a new key. -/
def push (m : Merging) (e : Entry) (new : m.places[e.key]? = none) : Merging where
  entries := m.entries ++ [e]
  places := m.places.insert e.key m.entries.length
  places_eq := by
    intro key
    rw [Std.ExtTreeMap.getElem?_insert, List.findIdx?_append]
    by_cases same : e.key = key
    · subst same
      simp [← m.places_eq, new]
    · simp [same, ← m.places_eq, List.findIdx?_cons]

/-- Enters a value: at the place of its key, or at the end. -/
def put (m : Merging) (e : Entry) : Merging :=
  match found : m.places[e.key]? with
  | some i => m.revalue i e.value
  | none => m.push e found

end Merging
/-- Lays overrides over defaults.  A key keeps the place where it occurs first and gets the
value that it has where it occurs last. -/
def overlay (defaults overrides : List Entry) : List Entry :=
  ((defaults ++ overrides).foldl Merging.put .empty).entries

end Entry

end WorkflowGraph

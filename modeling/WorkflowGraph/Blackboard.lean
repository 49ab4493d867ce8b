import Std.Data.ExtTreeMap
import WorkflowGraph.Seed
import WorkflowGraph.Text.Outline

/-!
# The blackboard

The state that nodes and conditions share: a finite map from keys to typed values.  Reading
never fails: a reader says which type it wants and gets nothing, or a default, when the key is
not there or holds another type.

A host may store values of any type.  The built-in nodes and conditions read the four types of
seeds only, so that to them all others are alike; 64-bit integers stand for these here.
-/

namespace WorkflowGraph

/-- A value on a blackboard. -/
inductive Stored where
  | seed (value : Seed)
  /-- A value of a type that no seed has. -/
  | long (n : Int64)

inductive StoredType where
  | int
  | float
  | bool
  | string
  | long
deriving DecidableEq, Repr

namespace Stored

def type : Stored → StoredType
  | .seed (.int _) => .int
  | .seed (.float _) => .float
  | .seed (.bool _) => .bool
  | .seed (.string _) => .string
  | .long _ => .long

end Stored

def StoredType.name : StoredType → String
  | .int => "i32"
  | .float => "f32"
  | .bool => "bool"
  | .string => "alloc::string::String"
  | .long => "i64"

/-- A blackboard.  Two blackboards are equal when they hold the same values under the same
keys. -/
abbrev Blackboard := Std.ExtTreeMap String Stored

namespace Blackboard

/-- Stores a value, in place of whatever the key held. -/
def set (b : Blackboard) (key : String) (value : Stored) : Blackboard := b.insert key value

def write (b : Blackboard) (key : String) (value : Seed) : Blackboard := b.set key (.seed value)

/-- Stores entries one after the other. -/
def writeAll (b : Blackboard) (entries : List Entry) : Blackboard :=
  entries.foldl (fun b e => b.write e.key e.value) b

/-- The value under a key, if it has the given type. -/
def typed? (b : Blackboard) (type : StoredType) (key : String) : Option Stored :=
  b[key]?.filter fun value => value.type == type

/-- The value under a key, or the default if there is none of its type. -/
def read (b : Blackboard) (key : String) (default : Stored) : Stored :=
  (b.typed? default.type key).getD default

/-- The value under a key, if it is a seed. -/
def seed? (b : Blackboard) (key : String) : Option Seed :=
  match b[key]? with
  | some (.seed value) => some value
  | _ => none

/-- The integer under a key, or the default. -/
def int (b : Blackboard) (key : String) (default : Int32) : Int32 :=
  match b[key]? with
  | some (.seed (.int n)) => n
  | _ => default

/-- The floating-point number under a key, if there is one. -/
def float? (b : Blackboard) (key : String) : Option Float32 :=
  match b[key]? with
  | some (.seed (.float x)) => some x
  | _ => none

/-- The truth value under a key; a key that holds none counts as false. -/
def flag (b : Blackboard) (key : String) : Bool :=
  match b[key]? with
  | some (.seed (.bool b)) => b
  | _ => false

/-- Puts a value in place of one of its own type. -/
def replace? (b : Blackboard) (key : String) (value : Stored) : Option Blackboard :=
  if (b.typed? value.type key).isSome then some (b.set key value) else none

/-- The name of the type of the value under a key. -/
def typeName? (b : Blackboard) (key : String) : Option String :=
  b[key]?.map fun value => value.type.name

/-- The keys with the names of the types they hold. -/
def describe (b : Blackboard) : String :=
  Text.Outline.map (b.toList.map fun (key, value) =>
    (Text.quoted key, Text.quoted value.type.name))

end Blackboard

end WorkflowGraph

import WorkflowGraph.Decimal.Magnitude

/-!
# JSON values

A `Json` value is what a JSON text denotes.  Objects are lists of members, so that the order in
which a record is written can be chosen; an object read from text has its members in strictly
increasing order of their keys.
-/

namespace WorkflowGraph

/-- A number as JSON texts have it: an integer of at most 64 bits, or a floating-point number
of either width. -/
inductive Number where
  | integer (n : Int)
  | single (x : Float32)
  | double (x : Float)
deriving DecidableEq

/-- A JSON value. -/
inductive Json where
  | null
  | boolean (b : Bool)
  | number (n : Number)
  | string (s : String)
  | array (items : List Json)
  | object (members : List (String × Json))

instance : Inhabited Json := ⟨.null⟩

/-- The number on the 64-bit floating-point scale. -/
def Number.toDouble : Number → Float
  | .integer n => if n < 0 then -n.natAbs.toUInt64.toFloat else n.natAbs.toUInt64.toFloat
  | .single x => Decimal.widen x
  | .double x => x

/-- The number rounded once to 32 bits. -/
def Number.toSingle : Number → Float32
  | .integer n => if n < 0 then -n.natAbs.toUInt64.toFloat32 else n.natAbs.toUInt64.toFloat32
  | .single x => x
  | .double x => Decimal.narrow x

namespace Json

/-- Enters a member into a list in increasing order of keys; a member with the same key is
replaced. -/
def enter (key : String) (value : Json) : List (String × Json) → List (String × Json)
  | [] => [(key, value)]
  | (k, v) :: rest =>
    if key < k then (key, value) :: (k, v) :: rest
    else if key = k then (key, value) :: rest
    else (k, v) :: enter key value rest

/-- The object with the given members, of which the last one with a key counts. -/
def ofMembers (members : List (String × Json)) : Json :=
  .object (members.foldl (fun entered (k, v) => enter k v entered) [])

/-- The member of an object with the given key. -/
def member? (key : String) : Json → Option Json
  | .object members => (members.find? (·.1 == key)).map (·.2)
  | _ => none

/-- A string, if the value is one. -/
def string? : Json → Option String
  | .string s => some s
  | _ => none

/-- A truth value, if the value is one. -/
def boolean? : Json → Option Bool
  | .boolean b => some b
  | _ => none

/-- The items of an array; nothing else has any. -/
def items : Json → List Json
  | .array items => items
  | _ => []

mutual

/-- The number of values and members a value is made of. -/
def weight : Json → Nat
  | .array items => 1 + listWeight items
  | .object members => 1 + memberWeight members
  | _ => 1

/-- The weight of the items of an array. -/
def listWeight : List Json → Nat
  | [] => 0
  | item :: rest => item.weight + listWeight rest

/-- The weight of the members of an object. -/
def memberWeight : List (String × Json) → Nat
  | [] => 0
  | (_, value) :: rest => value.weight + memberWeight rest

end

end Json

end WorkflowGraph

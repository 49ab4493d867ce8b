import WorkflowGraph.Json.Decoder
import WorkflowGraph.Json.Printer
import WorkflowGraph.Seed

/-!
# Seeds in JSON

A seed is written as an object with two members: `type` names its type and `value` holds it.
In reading the two come in any order, other members are passed over, and an array of the two
does as well.  A value that comes before its type is read as it is and fitted to the type
afterwards.
-/

namespace WorkflowGraph.Seed

open Json

/-- The types of seeds, as documents name them. -/
inductive Kind where
  | int
  | float
  | bool
  | string
deriving DecidableEq, Repr

/-- The names of the types. -/
def kinds : List (String × Kind) :=
  [("int", .int), ("float", .float), ("bool", .bool), ("string", .string)]

/-- How the value of a seed of a given type is read. -/
def ofKind : Kind → Decoder Seed
  | .int => Decoder.int32.map .int
  | .float => Decoder.single.map .float
  | .bool => Decoder.boolean.map .bool
  | .string => Decoder.string.map .string

/-- The shape of a seed, as messages name it. -/
def shape : String := "adjacently tagged enum BlackboardValue"

/-- How the type is read where its position says that it is one. -/
def kindInArray : Decoder Kind where
  text depth cs :=
    match skipSpace cs with
    | '"' :: _ => (Decoder.variant kinds).text depth cs
    | _ => .error (unexpected "variant identifier" cs)
  json
    | .string name => Decoder.variantOf kinds name
    | value => .error (.wrongType (Found.of value) "variant identifier")

/-- What is known of a seed while the members of its object are read. -/
inductive Known where
  | nothing
  | kind (k : Kind)
  | value (v : Json)
  | seed (s : Seed)

/-- Reads the members of a seed from behind the opening bracket. -/
def readMembers (depth : Nat) : Nat → Known → List Char → Bool → Except Fault (Scanned Seed)
  | 0, _, _, _ => .error .malformed
  | fuel + 1, known, cs, first => do
    match ← nextKey first cs with
    | .stop rest =>
      match known with
      | .seed s => pure (s, rest)
      | .kind _ => throw (.mismatch (.missingField "value"))
      | .nothing | .value _ => throw (.mismatch (.missingField "type"))
    | .next key rest =>
      match key, known with
      | "type", .nothing =>
        let (k, rest) ← (Decoder.variant kinds).text depth (← colon rest)
        readMembers depth fuel (.kind k) rest false
      | "type", .value v =>
        let (k, rest) ← (Decoder.variant kinds).text depth (← colon rest)
        let s ← Decoder.faulty ((ofKind k).json v)
        readMembers depth fuel (.seed s) rest false
      | "type", _ => throw (.mismatch (.duplicateField "type"))
      | "value", .nothing =>
        let (v, rest) ← readJson depth (← colon rest)
        readMembers depth fuel (.value v) rest false
      | "value", .kind k =>
        let (s, rest) ← (ofKind k).text depth (← colon rest)
        readMembers depth fuel (.seed s) rest false
      | "value", _ => throw (.mismatch (.duplicateField "value"))
      | _, _ => readMembers depth fuel known (← skipValue (← colon rest)) false

/-- Reads a seed written as an array, from behind the opening bracket. -/
def readPair (depth : Nat) (cs : List Char) : Except Fault (Scanned Seed) := do
  match ← nextItem true cs with
  | .stop _ => throw (.mismatch (.wrongLength 0 shape))
  | .next _ rest =>
    let (k, rest) ← kindInArray.text depth rest
    match ← nextItem false rest with
    | .stop _ => throw (.mismatch (.wrongLength 1 shape))
    | .next _ rest =>
      let (s, rest) ← (ofKind k).text depth rest
      match ← nextItem false rest with
      | .stop rest => pure (s, rest)
      | .next _ _ => throw .malformed

/-- Reads a seed from the members of an object. -/
def ofMembers (members : List (String × Json)) : Except Mismatch Seed :=
  match members.lookup "type", members.lookup "value" with
  | some k, some v => do (ofKind (← (Decoder.variant kinds).json k)).json v
  | some k, none => do
    let _ ← (Decoder.variant kinds).json k
    throw (.missingField "value")
  | none, _ => throw (.missingField "type")

def decoder : Decoder Seed where
  text depth cs :=
    match skipSpace cs with
    | '[' :: rest => do
      let depth ← deeper depth
      readPair depth rest
    | '\x7b' :: rest => do
      let depth ← deeper depth
      readMembers depth (rest.length + 1) .nothing rest true
    | _ => .error (unexpected shape cs)
  json
    | .array [] => .error (.wrongLength 0 shape)
    | .array [k] => do
      let _ ← kindInArray.json k
      throw (.wrongLength 1 shape)
    | .array (k :: v :: rest) => do
      let s ← (ofKind (← kindInArray.json k)).json v
      if rest.isEmpty then pure s
      else throw (.wrongLength (rest.length + 2) "fewer elements in array")
    | .object members => ofMembers members
    | value => .error (.wrongType (Found.of value) shape)

/-- The value of a seed, without its type. -/
def plainJson : Seed → Json
  | .int n => .number (.integer n.toInt)
  | .float x => .number (.single x)
  | .bool b => .boolean b
  | .string s => .string s

def toJson (s : Seed) : Json := .object [("type", .string s.kind), ("value", s.plainJson)]

end WorkflowGraph.Seed

namespace WorkflowGraph.Entry

open Json

def decoder : Decoder Entry :=
  Decoder.record "BlackboardEntry" ⟨"", .int 0⟩
    [.needed "key" .string fun e key => { e with key },
      .needed "value" Seed.decoder fun e value => { e with value }]

def toJson (e : Entry) : Json := .object [("key", .string e.key), ("value", e.value.toJson)]

end WorkflowGraph.Entry

import WorkflowGraph.Json.Scanner

/-!
# Decoders

A `Decoder` turns JSON into values of a type.  It works in two ways: straight from text, where
the first thing wrong in the order of the text decides, and from a JSON value that has been
read before.  Decoders are put together from those of the parts of a type: `Decoder.list`,
`Decoder.optional`, `Decoder.variant` and `Decoder.record`.

A record is written as an object, or as an array of its fields in the order of their
declaration.  Members of an object that are no fields are passed over.
-/

namespace WorkflowGraph.Json

/-- How values of a type are read from JSON.  The reader of text is told how many containers
may still be opened. -/
structure Decoder (α : Type) where
  text : Nat → List Char → Except Fault (Scanned α)
  json : Json → Except Mismatch α

namespace Decoder

/-- How many containers may be open at a time. -/
def depthLimit : Nat := 127

/-- Reads a whole text. -/
def fromText {α : Type} (d : Decoder α) (s : String) : Except Fault α := do
  let (value, rest) ← d.text depthLimit s.toList
  if (skipSpace rest).isEmpty then pure value else throw .malformed

/-- A decoder whose results are passed through a function. -/
def map {α β : Type} (f : α → β) (d : Decoder α) : Decoder β where
  text depth cs := (d.text depth cs).map fun (value, rest) => (f value, rest)
  json value := (d.json value).map f

/-! ## Plain values -/

/-- Any value. -/
def any : Decoder Json := ⟨readJson, .ok⟩

/-- Strings. -/
def string : Decoder String where
  text _ cs :=
    match skipSpace cs with
    | '"' :: rest => readString rest
    | _ => .error (unexpected "a string" cs)
  json
    | .string s => .ok s
    | value => .error (.wrongType (Found.of value) "a string")

/-- Truth values. -/
def boolean : Decoder Bool where
  text _ cs :=
    match skipSpace cs with
    | 't' :: rest => do pure (true, ← expect ['r', 'u', 'e'] rest)
    | 'f' :: rest => do pure (false, ← expect ['a', 'l', 's', 'e'] rest)
    | _ => .error (unexpected "a boolean" cs)
  json
    | .boolean b => .ok b
    | value => .error (.wrongType (Found.of value) "a boolean")

/-- Numbers that `accept` takes; anything else was expected to be an `expected`. -/
def number {α : Type} (expected : String) (accept : Number → Except Mismatch α) : Decoder α where
  text _ cs :=
    match skipSpace cs with
    | c :: rest =>
      if c = '-' ∨ c.isDigit then do
        let (n, rest) ← readNumber (c :: rest)
        match accept n with
        | .ok value => pure (value, rest)
        | .error cause => throw (.mismatch cause)
      else .error (unexpected expected cs)
    | [] => .error .malformed
  json
    | .number n => accept n
    | value => .error (.wrongType (Found.of value) expected)

/-- Integers from `least` to `greatest`. -/
def integer (expected : String) (least greatest : Int) : Decoder Int :=
  number expected fun
    | .integer n =>
      if least ≤ n ∧ n ≤ greatest then .ok n
      else .error (.wrongValue (.number (.integer n)) expected)
    | n => .error (.wrongType (.number n) expected)

/-- Signed 32-bit integers. -/
def int32 : Decoder Int32 := (integer "i32" (-2147483648) 2147483647).map Int32.ofInt

/-- Sizes, which are naturals of at most 64 bits. -/
def size : Decoder Nat := (integer "usize" 0 18446744073709551615).map Int.toNat

/-- 32-bit floating-point numbers; every number rounds to one. -/
def single : Decoder Float32 := number "f32" fun n => .ok n.toSingle

/-- Nothing at all. -/
def nothing : Decoder Unit where
  text _ cs :=
    match skipSpace cs with
    | 'n' :: rest => do pure ((), ← expect ['u', 'l', 'l'] rest)
    | _ => .error (unexpected "unit" cs)
  json
    | .null => .ok ()
    | value => .error (.wrongType (Found.of value) "unit")

/-! ## Sequences and absent values -/

/-- Sequences of values. -/
def list {α : Type} (d : Decoder α) : Decoder (List α) where
  text depth cs :=
    match skipSpace cs with
    | '[' :: rest => do
      let depth ← deeper depth
      readItems (d.text depth) (rest.length + 1) true rest
    | _ => .error (unexpected "a sequence" cs)
  json
    | .array items => items.mapM d.json
    | value => .error (.wrongType (Found.of value) "a sequence")

/-- Values that may be absent, which is written `null`. -/
def optional {α : Type} (d : Decoder α) : Decoder (Option α) where
  text depth cs :=
    match skipSpace cs with
    | 'n' :: rest => do pure (none, ← expect ['u', 'l', 'l'] rest)
    | cs => (d.text depth cs).map fun (value, rest) => (some value, rest)
  json
    | .null => .ok none
    | value => (d.json value).map some

/-! ## Named variants -/

/-- The variant of a name. -/
def variantOf {α : Type} (options : List (String × α)) (name : String) : Except Mismatch α :=
  match options.lookup name with
  | some value => .ok value
  | none => .error (.unknownVariant name (options.map (·.1)))

/-- One of the listed names, as a string or as the only key of an object with nothing behind
it. -/
def variant {α : Type} (options : List (String × α)) : Decoder α where
  text depth cs :=
    let named (name : String) (rest : List Char) : Except Fault (Scanned α) :=
      match variantOf options name with
      | .ok value => .ok (value, rest)
      | .error cause => .error (.mismatch cause)
    match skipSpace cs with
    | '"' :: rest => do
      let (name, rest) ← readString rest
      named name rest
    | '\x7b' :: rest => do
      let _ ← deeper depth
      match skipSpace rest with
      | '"' :: rest =>
        let (name, rest) ← readString rest
        let (value, rest) ← named name rest
        let (_, rest) ← nothing.text 0 (← colon rest)
        match skipSpace rest with
        | '\x7d' :: rest => pure (value, rest)
        | _ => throw .malformed
      | _ => throw .malformed
    | _ => .error .malformed
  json
    | .string name => variantOf options name
    | .object [(name, value)] => do
      let variant ← variantOf options name
      nothing.json value
      pure variant
    | .object _ => .error (.wrongValue .map "map with a single key")
    | value => .error (.wrongType (Found.of value) "string or map")

end Decoder

/-! ## Records -/

/-- A field of a record under construction. -/
structure Field (σ : Type) where
  /-- The key of the field. -/
  name : String
  /-- Whether the field has to be there. -/
  required : Bool
  /-- Reads the field from text into the record. -/
  text : Nat → σ → List Char → Except Fault (Scanned σ)
  /-- Reads the field from a value into the record. -/
  json : σ → Json → Except Mismatch σ

namespace Field

/-- The field that `set` enters into the record. -/
def make {α σ : Type} (required : Bool) (name : String) (d : Decoder α) (set : σ → α → σ) :
    Field σ where
  name := name
  required := required
  text depth record cs := (d.text depth cs).map fun (value, rest) => (set record value, rest)
  json record value := (d.json value).map (set record)

/-- A field that has to be there. -/
def needed {α σ : Type} (name : String) (d : Decoder α) (set : σ → α → σ) : Field σ :=
  make true name d set

/-- A field that keeps its initial value when it is not there. -/
def spare {α σ : Type} (name : String) (d : Decoder α) (set : σ → α → σ) : Field σ :=
  make false name d set

end Field

namespace Decoder

variable {σ : Type}

/-- The length that was expected of a record written as an array. -/
def recordLength (name : String) (fields : List (Field σ)) : String :=
  "struct " ++ name ++ " with " ++ toString fields.length ++
    if fields.length = 1 then " element" else " elements"

/-- Checks that no field from the given position on has to be there. -/
def noneNeeded (expected : String) : Nat → List (Field σ) → Except Mismatch Unit
  | _, [] => .ok ()
  | index, field :: rest =>
    if field.required then .error (.wrongLength index expected)
    else noneNeeded expected (index + 1) rest

/-- Checks that every field that has to be there has been seen. -/
def allSeen (fields : List (Field σ)) (seen : List String) : Except Mismatch Unit :=
  match fields.find? fun field => field.required && !seen.contains field.name with
  | some field => .error (.missingField field.name)
  | none => .ok ()

/-- A mismatch as a fault of the text. -/
def faulty {α : Type} : Except Mismatch α → Except Fault α
  | .ok value => .ok value
  | .error cause => .error (.mismatch cause)

/-- Reads a record written as an array, from behind its opening bracket. -/
def readPositions (expected : String) (depth : Nat) :
    List (Field σ) → Nat → σ → List Char → Except Fault (Scanned σ)
  | [], index, record, cs => do
    match ← nextItem (index == 0) cs with
    | .stop rest => pure (record, rest)
    | .next _ _ => throw .malformed
  | field :: fields, index, record, cs => do
    match ← nextItem (index == 0) cs with
    | .stop rest =>
      faulty (noneNeeded expected index (field :: fields))
      pure (record, rest)
    | .next _ rest =>
      let (record, rest) ← field.text depth record rest
      readPositions expected depth fields (index + 1) record rest

/-- Reads a record written as an object, from behind its opening bracket. -/
def readFields (fields : List (Field σ)) (depth : Nat) :
    Nat → List String → σ → List Char → Bool → Except Fault (Scanned σ)
  | 0, _, _, _, _ => .error .malformed
  | fuel + 1, seen, record, cs, first => do
    match ← nextKey first cs with
    | .stop rest =>
      faulty (allSeen fields seen)
      pure (record, rest)
    | .next key rest =>
      match fields.find? (·.name == key) with
      | none => readFields fields depth fuel seen record (← skipValue (← colon rest)) false
      | some field =>
        if seen.contains key then throw (.mismatch (.duplicateField key))
        let (record, rest) ← field.text depth record (← colon rest)
        readFields fields depth fuel (key :: seen) record rest false

/-- Reads a record from the items of an array. -/
def positions (expected : String) : List (Field σ) → Nat → σ → List Json →
    Except Mismatch (σ × Bool)
  | [], _, record, items => .ok (record, items.isEmpty)
  | field :: fields, index, record, [] => do
    noneNeeded expected index (field :: fields)
    pure (record, true)
  | field :: fields, index, record, item :: items => do
    positions expected fields (index + 1) (← field.json record item) items

/-- Enters a member of an object into a record. -/
def enterMember (fields : List (Field σ)) (record : σ) (member : String × Json) :
    Except Mismatch σ :=
  match fields.find? (·.name == member.1) with
  | some field => field.json record member.2
  | none => .ok record

/-- Records with the given fields, which start out as in `blank`. -/
def record (name : String) (blank : σ) (fields : List (Field σ)) : Decoder σ where
  text depth cs :=
    match skipSpace cs with
    | '[' :: rest => do
      let depth ← deeper depth
      readPositions (recordLength name fields) depth fields 0 blank rest
    | '\x7b' :: rest => do
      let depth ← deeper depth
      readFields fields depth (rest.length + 1) [] blank rest true
    | _ => .error (unexpected ("struct " ++ name) cs)
  json
    | .array items => do
      let (record, complete) ← positions (recordLength name fields) fields 0 blank items
      if complete then pure record
      else throw (.wrongLength items.length "fewer elements in array")
    | .object members => do
      let record ← members.foldlM (enterMember fields) blank
      allSeen fields (members.map (·.1))
      pure record
    | value => .error (.wrongType (Found.of value) ("struct " ++ name))

end Decoder

end WorkflowGraph.Json

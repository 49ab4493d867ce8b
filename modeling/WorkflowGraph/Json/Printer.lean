import WorkflowGraph.Json.Basic
import WorkflowGraph.Decimal.Layout

/-!
# Writing JSON

`Json.compact` writes a value without any space; `Json.pretty` writes every item and member on
a line of its own, two spaces deeper than its container, and a space after each colon.  Only
the quote, the backslash and control characters are escaped.
-/

namespace WorkflowGraph.Json

/-- A character as it stands in a JSON string. -/
def escape (c : Char) : List Char :=
  if c = '"' then ['\\', '"']
  else if c = '\\' then ['\\', '\\']
  else if c = '\n' then ['\\', 'n']
  else if c = '\r' then ['\\', 'r']
  else if c = '\t' then ['\\', 't']
  else if c = '\x08' then ['\\', 'b']
  else if c = '\x0c' then ['\\', 'f']
  else if c.toNat < 0x20 then
    ['\\', 'u', '0', '0', (c.toNat / 16).digitChar, (c.toNat % 16).digitChar]
  else [c]

/-- A JSON string. -/
def quote (s : String) : List Char := '"' :: (s.toList.flatMap escape ++ ['"'])

/-- The text of a number. -/
def numberText : Number → List Char
  | .integer n => (toString n).toList
  | .single x => (Decimal.jsonSingle x).toList
  | .double x => (Decimal.jsonDouble x).toList

/-- A value without items or members. -/
def leaf : Json → List Char
  | .null => "null".toList
  | .boolean true => "true".toList
  | .boolean false => "false".toList
  | .number n => numberText n
  | .string s => quote s
  | .array _ => "[]".toList
  | .object _ => "\x7b\x7d".toList

/-- Parts separated by a comma. -/
def separate (comma : List Char) : List (List Char) → List Char
  | [] => []
  | [part] => part
  | part :: rest => part ++ comma ++ separate comma rest

mutual

/-- The text of a value without any space. -/
def compactChars : Json → List Char
  | .array items => '[' :: (separate [','] (compactItems items) ++ [']'])
  | .object members => '\x7b' :: (separate [','] (compactMembers members) ++ ['\x7d'])
  | value => leaf value

/-- The texts of the items of an array. -/
def compactItems : List Json → List (List Char)
  | [] => []
  | item :: rest => compactChars item :: compactItems rest

/-- The texts of the members of an object. -/
def compactMembers : List (String × Json) → List (List Char)
  | [] => []
  | (key, value) :: rest => (quote key ++ ':' :: compactChars value) :: compactMembers rest

end

/-- The start of a line at the given depth. -/
def newline (depth : Nat) : List Char := '\n' :: List.replicate (2 * depth) ' '

/-- The parts of a container at the given depth, one to a line between two brackets. -/
def enclose (opening closing : Char) (depth : Nat) (parts : List (List Char)) : List Char :=
  if parts.isEmpty then [opening, closing]
  else
    opening :: newline (depth + 1) ++ separate (',' :: newline (depth + 1)) parts ++
      newline depth ++ [closing]

mutual

/-- The text of a value at the given depth, one item or member to a line. -/
def prettyChars (depth : Nat) : Json → List Char
  | .array items => enclose '[' ']' depth (prettyItems (depth + 1) items)
  | .object members => enclose '\x7b' '\x7d' depth (prettyMembers (depth + 1) members)
  | value => leaf value

/-- The texts of the items of an array. -/
def prettyItems (depth : Nat) : List Json → List (List Char)
  | [] => []
  | item :: rest => prettyChars depth item :: prettyItems depth rest

/-- The texts of the members of an object. -/
def prettyMembers (depth : Nat) : List (String × Json) → List (List Char)
  | [] => []
  | (key, value) :: rest =>
    (quote key ++ ':' :: ' ' :: prettyChars depth value) :: prettyMembers depth rest

end

/-- The text of a value without any space. -/
def compact (value : Json) : String := String.ofList value.compactChars

/-- The text of a value, one item or member to a line. -/
def pretty (value : Json) : String := String.ofList (value.prettyChars 0)

end WorkflowGraph.Json

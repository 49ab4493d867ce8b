import WorkflowGraph.Text.Quoted

/-!
# Descriptions of values

One line of text that shows how a value is put together: records with named fields, wrapped
values, lists and finite maps.
-/

namespace WorkflowGraph.Text.Outline

/-- The parts of a description, separated by commas. -/
def commas (parts : List String) : String := ", ".intercalate parts

/-- A record and its fields, each with the description of its value. -/
def record (name : String) (fields : List (String × String)) : String :=
  name ++ " \x7b " ++ commas (fields.map fun (field, value) => field ++ ": " ++ value) ++ " \x7d"

/-- A record none of whose fields are shown. -/
def hidden (name : String) : String := name ++ " \x7b .. \x7d"

/-- A named wrapper around one value. -/
def wrapped (name value : String) : String := name ++ "(" ++ value ++ ")"

def list (items : List String) : String := "[" ++ commas items ++ "]"

/-- A finite map. -/
def map (entries : List (String × String)) : String :=
  "\x7b" ++ commas (entries.map fun (key, value) => key ++ ": " ++ value) ++ "\x7d"

/-- A value that may be absent. -/
def optional : Option String → String
  | none => "None"
  | some value => wrapped "Some" value

def truth (b : Bool) : String := if b then "true" else "false"

end WorkflowGraph.Text.Outline

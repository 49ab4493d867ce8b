import WorkflowGraph.Json.Basic
import WorkflowGraph.Decimal.Layout
import WorkflowGraph.Text.Quoted

/-!
# What can be wrong with a JSON document

A text may fail to be JSON at all, or it may be JSON of another shape than the one asked for.
The second kind is a `Mismatch`, which names its cause; `Mismatch.message` is its wording.
-/

namespace WorkflowGraph.Json

/-- What was found in a place where something else was expected. -/
inductive Found where
  | null
  | boolean (b : Bool)
  | number (n : Number)
  | string (s : String)
  | sequence
  | map

/-- What a value counts as when it is not what was expected. -/
def Found.of : Json → Found
  | .null => .null
  | .boolean b => .boolean b
  | .number n => .number n
  | .string s => .string s
  | .array _ => .sequence
  | .object _ => .map

/-- The wording of what was found. -/
def Found.describe : Found → String
  | .null => "null"
  | .boolean true => "boolean `true`"
  | .boolean false => "boolean `false`"
  | .number (.integer n) => "integer `" ++ toString n ++ "`"
  | .number (.single x) => "floating point `" ++ Decimal.jsonDouble (Decimal.widen x) ++ "`"
  | .number (.double x) => "floating point `" ++ Decimal.jsonDouble x ++ "`"
  | .string s => "string " ++ Text.quoted s
  | .sequence => "sequence"
  | .map => "map"

/-- Why a value does not have the shape that was asked for. -/
inductive Mismatch where
  /-- A value of another kind. -/
  | wrongType (found : Found) (expected : String)
  /-- A value of the right kind outside of the range. -/
  | wrongValue (found : Found) (expected : String)
  /-- A sequence of the wrong length. -/
  | wrongLength (length : Nat) (expected : String)
  /-- A name that is none of the possible ones. -/
  | unknownVariant (name : String) (options : List String)
  /-- A member that has to be there is not. -/
  | missingField (name : String)
  /-- A member occurs twice. -/
  | duplicateField (name : String)

/-- The possible names, as messages list them. -/
def optionList (options : List String) : String :=
  let ticked := options.map fun name => "`" ++ name ++ "`"
  match ticked with
  | [first, second] => first ++ " or " ++ second
  | _ => (if ticked.length = 1 then "" else "one of ") ++ ", ".intercalate ticked

/-- The wording of a mismatch. -/
def Mismatch.message : Mismatch → String
  | .wrongType found expected => "invalid type: " ++ found.describe ++ ", expected " ++ expected
  | .wrongValue found expected => "invalid value: " ++ found.describe ++ ", expected " ++ expected
  | .wrongLength length expected =>
    "invalid length " ++ toString length ++ ", expected " ++ expected
  | .unknownVariant name options =>
    "unknown variant `" ++ name ++ "`, " ++
      if options.isEmpty then "there are no variants" else "expected " ++ optionList options
  | .missingField name => "missing field `" ++ name ++ "`"
  | .duplicateField name => "duplicate field `" ++ name ++ "`"

/-- Why a text cannot be read: it is no JSON, nests too deep or holds a number that is too
large; or it is JSON up to a value that does not fit. -/
inductive Fault where
  | malformed
  | mismatch (cause : Mismatch)

end WorkflowGraph.Json

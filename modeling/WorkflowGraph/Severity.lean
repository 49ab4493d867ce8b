import WorkflowGraph.Json.Decoder

/-!
# Severities

How serious a log line is.
-/

namespace WorkflowGraph

/-- How serious a log line is. -/
inductive Severity where
  | trace
  | debug
  | info
  | warn
  | error
deriving DecidableEq, Repr

namespace Severity

/-- The severity as it stands in log lines. -/
def label : Severity → String
  | .trace => "TRACE"
  | .debug => "DEBUG"
  | .info => "INFO"
  | .warn => "WARN"
  | .error => "ERROR"

/-- The severity in descriptions of values. -/
def describe : Severity → String
  | .trace => "Trace"
  | .debug => "Debug"
  | .info => "Info"
  | .warn => "Warn"
  | .error => "Error"

/-- The names of the severities in documents. -/
def names : List (String × Severity) :=
  [("trace", .trace), ("debug", .debug), ("info", .info), ("warn", .warn), ("error", .error)]

def decoder : Json.Decoder Severity := Json.Decoder.variant names

/-- The severities by their ranks, of which 1 is the most serious. -/
def ofRank? : Nat → Option Severity
  | 1 => some .error
  | 2 => some .warn
  | 3 => some .info
  | 4 => some .debug
  | 5 => some .trace
  | _ => none

/-- The natural number of a decimal numeral, which may have a plus sign in front. -/
def numeral? (text : List Char) : Option Nat :=
  let ds := match text with
    | '+' :: rest => rest
    | text => text
  if ds ≠ [] ∧ ds.all Char.isDigit then
    some (ds.foldl (fun n d => 10 * n + (d.toNat - '0'.toNat)) 0)
  else none

/-- The severity of its rank, or of its name in any mixture of capitals and small letters. -/
def ofName? (name : String) : Option Severity :=
  (numeral? name.toList).bind ofRank? <|> names.lookup name.toLower

end Severity

end WorkflowGraph

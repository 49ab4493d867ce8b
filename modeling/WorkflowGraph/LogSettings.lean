import WorkflowGraph.Severity
import WorkflowGraph.Text.Blank

/-!
# Settings of the log

What a host sets before it installs the log of its process.  A process has one log: installing
it succeeds only the first time.
-/

namespace WorkflowGraph

/-- The layout of log lines. -/
inductive LogFormat where
  | pretty
  | compact
  | json
deriving DecidableEq, Repr

namespace LogFormat

/-- The format of a name, which may have white space around it and any mixture of capitals and
small letters. -/
def ofName? (name : String) : Option LogFormat :=
  match (Text.trim name).toLower with
  | "pretty" => some .pretty
  | "compact" => some .compact
  | "json" => some .json
  | _ => none

/-- The name of a format. -/
def name : LogFormat → String
  | .pretty => "Pretty"
  | .compact => "Compact"
  | .json => "Json"

end LogFormat

/-- What a host can set about its log. -/
structure LogSettings where
  level : Severity := .info
  format : LogFormat := .pretty
  filter : Option String := none
  spans : Bool := false
deriving DecidableEq, Repr

namespace LogSettings

/-- Installs the log in a process, given what is installed there.  Also tells whether this
installation took effect. -/
def install (s : LogSettings) : Option LogSettings → Option LogSettings × Bool
  | none => (some s, true)
  | some installed => (some installed, false)

end LogSettings

end WorkflowGraph

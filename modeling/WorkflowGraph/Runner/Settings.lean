import WorkflowGraph.Machine.Settings
import WorkflowGraph.Seed.Format
import WorkflowGraph.Text.Outline

/-!
# Settings of a runner

The host-side settings of a run: those of the machine, which events lead to which nodes, values
that take the place of a graph's defaults, and how time passes.
-/

namespace WorkflowGraph

/-- An event that leads to a node from outside of the graph. -/
structure Binding where
  event : String
  target : Guid
deriving DecidableEq, Repr

/-- What can be set about a runner. -/
structure RunnerSettings where
  machine : MachineSettings := {}
  bindings : List Binding := []
  overrides : List Entry := []
  timeScale : Float32 := 1.0
  startPaused : Bool := false

/-- Why settings cannot be used. -/
inductive SettingsError where
  /-- The file could not be read. -/
  | unreadable (path : String) (cause : String)
  /-- The text does not hold settings. -/
  | unparsed (fault : Json.Fault)
  /-- The time scale is negative or not finite. -/
  | badTimeScale (timeScale : Float32)
  /-- A binding lacks its event or its target. -/
  | incompleteBinding (index : Nat)

namespace Binding

open Json

def decoder : Decoder Binding :=
  Decoder.record "EventBinding" ⟨"", ""⟩
    [.needed "event_name" .string fun b event => { b with event },
      .needed "target_node_guid" .string fun b target => { b with target }]

def toJson (b : Binding) : Json :=
  .object [("event_name", .string b.event), ("target_node_guid", .string b.target)]

/-- The fields of a binding in descriptions. -/
def describe (b : Binding) : String :=
  Text.Outline.record "EventBinding"
    [("event_name", Text.quoted b.event), ("target_node_guid", Text.quoted b.target)]

end Binding

namespace RunnerSettings

open Json

/-- How settings are read; every field may be left out. -/
def decoder : Decoder RunnerSettings :=
  Decoder.record "RunnerConfig" {}
    [.spare "machine" MachineSettings.decoder fun s machine => { s with machine },
      .spare "bindings" (.list Binding.decoder) fun s bindings => { s with bindings },
      .spare "blackboard_overrides" (.list Entry.decoder) fun s overrides => { s with overrides },
      .spare "time_scale" .single fun s timeScale => { s with timeScale },
      .spare "start_paused" .boolean fun s startPaused => { s with startPaused }]

def toJson (s : RunnerSettings) : Json :=
  .object
    [("machine", s.machine.toJson),
      ("bindings", .array (s.bindings.map Binding.toJson)),
      ("blackboard_overrides", .array (s.overrides.map Entry.toJson)),
      ("time_scale", .number (.single s.timeScale)),
      ("start_paused", .boolean s.startPaused)]

/-- Checks what the shape of settings does not settle; the first problem decides. -/
def check (s : RunnerSettings) : Except SettingsError Unit :=
  if !s.timeScale.isFinite || s.timeScale < 0.0 then .error (.badTimeScale s.timeScale)
  else
    match s.bindings.findIdx? fun b => b.event.isEmpty || b.target.isEmpty with
    | some index => .error (.incompleteBinding index)
    | none => .ok ()

/-- Reads and checks settings. -/
def ofText (text : String) : Except SettingsError RunnerSettings := do
  match decoder.fromText text with
  | .error fault => throw (.unparsed fault)
  | .ok s =>
    s.check
    pure s

/-- Reads and checks settings from what a file gave: its text, or why it could not be read. -/
def ofFile (path : String) : Except String String → Except SettingsError RunnerSettings
  | .ok text => ofText text
  | .error cause => .error (.unreadable path cause)

/-- Whether nothing has been set. -/
def isDefault (s : RunnerSettings) : Bool :=
  s.machine == ({} : MachineSettings) && s.bindings.isEmpty && s.overrides.isEmpty &&
    s.timeScale == 1.0 && !s.startPaused

end RunnerSettings

namespace SettingsError

/-- The wording of an error that is not one of the text. -/
def message : SettingsError → String
  | .unreadable path cause => "failed to read runner config '" ++ path ++ "': " ++ cause
  | .unparsed .malformed => "failed to parse runner config: malformed text"
  | .unparsed (.mismatch cause) => "failed to parse runner config: " ++ cause.message
  | .badTimeScale timeScale =>
    "time scale must be a finite, non-negative number (got " ++
      Decimal.plainSingle timeScale ++ ")"
  | .incompleteBinding index =>
    "binding #" ++ toString index ++ " has an empty event name or target"

end SettingsError

end WorkflowGraph

import WorkflowGraph.Catalog.Conditions
import WorkflowGraph.Door
import WorkflowGraph.Runner

/-!
# Scenarios

A scenario runs a graph for a number of frames of equal length and publishes events on the way,
each before the tick of its frame.  Its summary tells where the run ended and which nodes it
went through, as far as the history of the machine reaches back.
-/

namespace WorkflowGraph

/-- An event that is published before a frame; frames are counted from one. -/
structure Cue where
  frame : Nat
  event : String
deriving DecidableEq, Repr

/-- What a scenario came to. -/
structure Summary where
  frames : Nat
  finalNode : Option Guid
  /-- Whether the door is open at the end. -/
  doorOpen : Bool
  /-- The nodes entered, oldest first. -/
  visited : List Guid
  journal : List Notice

/-- Why a scenario did not run. -/
inductive ScenarioError where
  | build (cause : BuildError)
  | settings (cause : SettingsError)
  | start (cause : StartError)

def ScenarioError.message : ScenarioError → String
  | .build cause => cause.message
  | .settings cause => cause.message
  | .start cause => cause.message

namespace Scenario

/-- The events of the bundled scenario: a knock, a lockdown on the way, then the bell. -/
def doorCues : List Cue := [⟨5, "knock"⟩, ⟨100, "lockdown"⟩, ⟨200, "doorbell"⟩]

/-- The runner of a document and settings, on a hub of its own; where no text is given, that of
the door. -/
def runner (graph settings : Option String) : Except ScenarioError Runner := do
  let graph ← match graph with
    | some text => (Registry.builtin.load text).mapError .build
    | none => (Registry.builtin.graphOf Door.document).mapError .build
  let settings ← match settings with
    | some text => (RunnerSettings.ofText text).mapError .settings
    | none => .ok Door.settings
  pure (Runner.create graph {} settings)

/-- Publishes the events of a frame. -/
def cue (cues : List Cue) (frame : Nat) (r : Runner) : Runner :=
  (cues.filter fun c => c.frame == frame).foldl
    (fun r c => r.onSession fun s => s.publish c.event) r

/-- Runs the given number of frames, from a frame on. -/
def frames (cues : List Cue) (deltaTime : Float32) : Nat → Nat → Runner → Runner
  | 0, _, r => r
  | count + 1, frame, r =>
    frames cues deltaTime count (frame + 1) ((cue cues frame r).tick deltaTime).2

/-- Runs a started runner and sums up; at the end the runner is stopped. -/
def play (cues : List Cue) (count : Nat) (deltaTime : Float32) (r : Runner) : Summary :=
  let r := frames cues deltaTime count 1 r
  { frames := count
    finalNode := r.machine.current
    doorOpen := r.machine.session.context.blackboard.flag Door.openKey
    visited := r.machine.history.records.map (·.target)
    journal := r.stop.hub.journal }

def run (graph settings : Option String) (cues : List Cue) (count : Nat) (deltaTime : Float32) :
    Except ScenarioError Summary := do
  let r ← runner graph settings
  match r.start with
  | (.ok (), r) => pure (play cues count deltaTime r)
  | (.error cause, _) => throw (.start cause)

end Scenario

end WorkflowGraph

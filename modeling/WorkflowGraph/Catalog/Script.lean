import WorkflowGraph.Catalog.Conditions

/-!
# Scripted nodes and simple conditions

A scripted node carries out a list of actions on each occasion on which it is called, and enters
every call into the journal.  Together with conditions that look at one key, or at nothing, such
nodes make every situation that a machine can get into.

The data of a scripted node has to be a record of lists.  Within its actions, as in the data of
the conditions, what does not fit counts as absent: a text as the empty text, a number as zero,
a truth value as false, and an action without a known name as no action at all.
-/

namespace WorkflowGraph

open Json

/-- The 32-bit number of a JSON number or of the name of one that JSON cannot write. -/
def singleOf : Json → Float32
  | .number n => Decimal.narrow n.toDouble
  | .string "nan" => 0.0 / 0.0
  | .string "inf" => 1.0 / 0.0
  | .string "-inf" => -1.0 / 0.0
  | _ => 0.0

/-- The integer of a JSON integer of at most 64 bits with its sign. -/
def integerOf : Json → Int
  | .number (.integer n) => if n < 9223372036854775808 then n else 0
  | _ => 0

/-- The text of a JSON string. -/
def textOf (j : Json) : String := j.string?.getD ""

/-- The item of an array at a place. -/
def itemOf (j : Json) (place : Nat) : Json := j.items[place]?.getD .null

/-- The value of an array of the name of its type and itself. -/
def Stored.ofTagged? (j : Json) : Option Stored :=
  let value := itemOf j 1
  match textOf (itemOf j 0) with
  | "int" => some (.seed (.int (Int32.ofInt (integerOf value))))
  | "float" => some (.seed (.float (singleOf value)))
  | "bool" => some (.seed (.bool (value.boolean?.getD false)))
  | "string" => some (.seed (.string (textOf value)))
  | "i64" => some (.long (Int64.ofInt (integerOf value)))
  | _ => none

/-- One action of a scripted node. -/
inductive Action where
  | set (key : String) (value : Stored)
  | unset (key : String)
  | increment (key : String)
  | request (guid : Guid)
  | watch (event : String)
  /-- Listens to an event for the rest of the run. -/
  | listen (event : String)
  /-- Listens to an event while the node is active. -/
  | listenWhileActive (event : String)
  | publish (event : String)
  /-- Counts an event as fired. -/
  | mark (event : String)
  | reset
  /-- Ends all registrations of the context. -/
  | release

namespace Action

def perform : Action → Session → Session
  | .set key value, s => s.onContext fun c => c.set key value
  | .unset key, s => s.onContext fun c => { c with blackboard := c.blackboard.erase key }
  | .increment key, s =>
    s.onContext fun c => c.set key (.seed (.int (c.blackboard.int key 0 + 1)))
  | .request guid, s => s.onContext fun c => c.request guid
  | .watch event, s => (s.watch event).2
  | .listen event, s => (s.subscribe event (.notify ("run:" ++ event))).2
  | .listenWhileActive event, s =>
    (s.subscribeForNode event (.notify ("node:" ++ event))).2
  | .publish event, s => s.publish event
  | .mark event, s => s.onContext fun c => c.countEvent event 1
  | .reset, s => s.reset
  | .release, s => s.release

/-- The action of an array of its name and its arguments; further items do not count. -/
def ofJson? (j : Json) : Option Action :=
  let argument := textOf (itemOf j 1)
  match textOf (itemOf j 0) with
  | "set" => (Stored.ofTagged? (itemOf j 2)).map (.set argument)
  | "unset" => some (.unset argument)
  | "inc" => some (.increment argument)
  | "request" => some (.request argument)
  | "watch" => some (.watch argument)
  | "sub" => some (.listen argument)
  | "sub_active" => some (.listenWhileActive argument)
  | "publish" => some (.publish argument)
  | "mark" => some (.mark argument)
  | "reset" => some .reset
  | "dispose_all" => some .release
  | _ => none

def decoder : Decoder (List Action) := (Decoder.list .any).map fun l => l.filterMap ofJson?

end Action

structure Script where
  /-- The ports, if the author named any. -/
  ports : Option (List String) := none
  enter : List Action := []
  update : List Action := []
  fixed : List Action := []
  exit : List Action := []

namespace Script

def decoder : Decoder Script :=
  Decoder.record "Script" {}
    [.spare "ports" (.optional (.list .string)) fun s ports => { s with ports },
      .spare "enter" Action.decoder fun s enter => { s with enter },
      .spare "update" Action.decoder fun s update => { s with update },
      .spare "fixed" Action.decoder fun s fixed => { s with fixed },
      .spare "exit" Action.decoder fun s exit => { s with exit }]

def actions (s : Script) : Phase → List Action
  | .enter => s.enter
  | .update => s.update
  | .fixedUpdate => s.fixed
  | .exit => s.exit

def behaviour (s : Script) : Behaviour :=
  let run (phase : Phase) (session : Session) : Session :=
    (s.actions phase).foldl (fun session action => action.perform session) session
  Behaviour.observed
    { typeName := "Script"
      ports := s.ports.getD [defaultPort]
      onEnter := run .enter
      onUpdate := run .update
      onFixedUpdate := run .fixedUpdate
      onExit := run .exit }

end Script

namespace Condition

/-- Whether a key holds the truth value true. -/
def flag (name key : String) : Condition := ⟨name, fun s => s.context.blackboard.flag key⟩

/-- A condition that does not look at anything. -/
def constant (value : Bool) : Condition := ⟨"Const", fun _ => value⟩

def named (name : String) (c : Condition) : Condition := ⟨name, c.holds⟩

def describeNamed (c : Condition) : String :=
  Text.Outline.record "FnCondition" [("name", Text.quoted c.typeName)]

end Condition

/-- A registry that knows scripted nodes and simple conditions as well. -/
def Registry.withScripts (r : Registry) : Registry :=
  let r := r.addNode "Script" Script.decoder Script.behaviour
  let r := r.addConditionMaker "Flag" fun data =>
    pure (Condition.flag "Flag" (((data.member? "key").map textOf).getD ""))
  r.addConditionMaker "Const" fun data =>
    pure (Condition.constant (((data.member? "value").bind Json.boolean?).getD false))

end WorkflowGraph

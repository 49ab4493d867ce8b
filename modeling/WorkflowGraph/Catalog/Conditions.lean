import WorkflowGraph.Catalog.Nodes
import WorkflowGraph.Decimal.Quantity

/-!
# The built-in conditions

Three conditions look at the session: whether a wait is over, whether an event has fired often
enough, and how a value on the blackboard compares with a constant.  Three more are made of
other conditions: negation, conjunction and disjunction.
-/

namespace WorkflowGraph

open Json

/-! ## Comparisons -/

/-- The comparison operators. -/
inductive Comparison where
  | eq
  | ne
  | lt
  | le
  | gt
  | ge
deriving DecidableEq, Repr

namespace Comparison

/-- Whether the operator accepts two values that are ordered in the given way. -/
def accepts : Comparison → Ordering → Bool
  | .eq, o => o == .eq
  | .ne, o => o != .eq
  | .lt, o => o == .lt
  | .le, o => o != .gt
  | .gt, o => o == .gt
  | .ge, o => o != .lt

/-- The spellings of the operators. -/
def names : List (String × Comparison) :=
  [("==", .eq), ("eq", .eq), ("!=", .ne), ("ne", .ne), ("<", .lt), ("lt", .lt), ("<=", .le),
    ("le", .le), (">", .gt), ("gt", .gt), (">=", .ge), ("ge", .ge)]

def describe : Comparison → String
  | .eq => "Eq"
  | .ne => "Ne"
  | .lt => "Lt"
  | .le => "Le"
  | .gt => "Gt"
  | .ge => "Ge"

end Comparison

namespace Seed

/-- The exact value of a numeric seed. -/
def quantity? : Seed → Option Decimal.Quantity
  | .int n => some (.ofInt n.toInt)
  | .float x => Decimal.Quantity.ofSingle? x
  | .bool _ | .string _ => none

/-- How two seeds are ordered.  Numbers are ordered by their values, whatever their types;
truth values and texts only among themselves.  Everything else is not ordered. -/
def compare? : Seed → Seed → Option Ordering
  | .bool a, .bool b => some (compare a b)
  | .string a, .string b => some (compare a b)
  | a, b => do pure (Decimal.Quantity.compare (← a.quantity?) (← b.quantity?))

def describe : Seed → String
  | .int n => Text.Outline.wrapped "Int" (toString n.toInt)
  | .float x => Text.Outline.wrapped "Float" (Decimal.preciseSingle x)
  | .bool b => Text.Outline.wrapped "Bool" (Text.Outline.truth b)
  | .string s => Text.Outline.wrapped "String" (Text.quoted s)

end Seed

/-! ## Conditions on the session -/

/-- The built-in conditions that look at the session. -/
inductive BuiltinCondition where
  /-- The wait of a node, or else of the current node, is over. -/
  | waitElapsed (node : Option Guid)
  /-- An event has fired a number of times. -/
  | eventFired (event : String) (least : Int32)
  /-- A value on the blackboard compares with a constant. -/
  | compare (key : String) (op : Comparison) (value : Seed)

namespace BuiltinCondition

/-- The name of the type. -/
def typeName : BuiltinCondition → String
  | .waitElapsed _ => "WaitElapsed"
  | .eventFired .. => "EventFired"
  | .compare .. => "Compare"

/-- Whether the condition holds. -/
def holds : BuiltinCondition → Session → Bool
  | .waitElapsed node, s =>
    match node <|> s.context.currentNode with
    | some guid => (s.context.blackboard.float? (waitKey guid)).any fun left => left ≤ 0.0
    | none => false
  | .eventFired event least, s => least ≤ s.context.countOf event
  | .compare key op value, s =>
    match s.context.blackboard.seed? key with
    | some actual => (actual.compare? value).any op.accepts
    | none => false

/-- The condition. -/
def condition (c : BuiltinCondition) : Condition := ⟨c.typeName, c.holds⟩

def describe : BuiltinCondition → String
  | .waitElapsed node =>
    Text.Outline.record "WaitElapsedCondition"
      [("node", Text.Outline.optional (node.map Text.quoted))]
  | .eventFired event least =>
    Text.Outline.record "EventFiredCondition"
      [("event", Text.quoted event), ("min_count", toString least.toInt)]
  | .compare key op value =>
    Text.Outline.record "CompareCondition"
      [("key", Text.quoted key), ("op", op.describe), ("value", value.describe)]

/-- How the settings of waits are read. -/
def waitElapsedDecoder : Decoder BuiltinCondition :=
  (Decoder.record "WaitElapsedCondition" none
    [.spare "node" (.optional .string) fun _ node => node]).map .waitElapsed

/-- How the settings of fired events are read. -/
def eventFiredDecoder : Decoder BuiltinCondition :=
  (Decoder.record "EventFiredCondition" ("", (1 : Int32))
    [.needed "event" .string fun d event => (event, d.2),
      .spare "min_count" .int32 fun d least => (d.1, least)]).map
    fun (event, least) => .eventFired event least

/-- How the settings of comparisons are read. -/
def compareDecoder : Decoder BuiltinCondition :=
  (Decoder.record "CompareCondition" ("", Comparison.eq, Seed.int 0)
    [.needed "key" .string fun d key => (key, d.2),
      .needed "op" (.variant Comparison.names) fun d op => (d.1, op, d.2.2),
      .needed "value" Seed.decoder fun d value => (d.1, d.2.1, value)]).map
    fun (key, op, value) => .compare key op value

end BuiltinCondition

/-! ## Conditions made of conditions -/

/-- The built-in conditions that are made of others. -/
inductive Combination where
  | not (inner : Condition)
  | all (parts : List Condition)
  | any (parts : List Condition)

namespace Combination

/-- The condition.  Without parts a conjunction holds and a disjunction does not. -/
def condition : Combination → Condition
  | .not inner => ⟨"Not", fun s => !inner.holds s⟩
  | .all parts => ⟨"All", fun s => parts.all fun c => c.holds s⟩
  | .any parts => ⟨"Any", fun s => parts.any fun c => c.holds s⟩

def describe : Combination → String
  | .not inner => Text.Outline.wrapped "Not" (Text.quoted inner.typeName)
  | .all parts | .any parts =>
    Text.Outline.list (parts.map fun c => Text.quoted c.typeName)

/-- How the part of a negation is read. -/
def innerDecoder : Decoder Spec :=
  Decoder.record "NotData" { type := "" } [.needed "inner" Spec.ofCondition fun _ inner => inner]

/-- How the parts of a conjunction or disjunction are read. -/
def partsDecoder : Decoder (List Spec) :=
  Decoder.record "ListData" []
    [.spare "conditions" (.list Spec.ofCondition) fun _ parts => parts]

/-- Makes negations. -/
def notMaker : ConditionMaker := fun data => do
  let inner ← Registry.decodeData "Not" innerDecoder data
  pure (Combination.not (← Recipe.build inner)).condition

/-- Makes conditions from a list of parts. -/
def listMaker (type : String) (make : List Condition → Combination) : ConditionMaker :=
  fun data => do
    let parts ← Registry.decodeData type partsDecoder data
    pure (make (← Recipe.buildAll parts)).condition

end Combination

/-- A registry that knows the built-in conditions as well. -/
def registerConditions (r : Registry) : Registry :=
  let leaf (r : Registry) (type : String) (d : Decoder BuiltinCondition) :=
    r.addCondition type d BuiltinCondition.condition
  let r := leaf r "WaitElapsed" BuiltinCondition.waitElapsedDecoder
  let r := leaf r "EventFired" BuiltinCondition.eventFiredDecoder
  let r := leaf r "Compare" BuiltinCondition.compareDecoder
  let r := r.addConditionMaker "Not" Combination.notMaker
  let r := r.addConditionMaker "All" (Combination.listMaker "All" .all)
  r.addConditionMaker "Any" (Combination.listMaker "Any" .any)

/-- A registry that knows all built-in types as well. -/
def Registry.withBuiltins (r : Registry) : Registry :=
  registerConditions (BuiltinNode.register r)

/-- The registry of the built-in types. -/
def Registry.builtin : Registry := Registry.base.withBuiltins

end WorkflowGraph

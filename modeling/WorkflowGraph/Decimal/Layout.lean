import WorkflowGraph.Decimal.Shortest

/-!
# How numbers are laid out as text

The digits of a number are settled by `shortest`; a `Layout` holds the remaining decisions: how
ties go, which numbers are written out in full and which with a power of ten, whether a whole
number keeps a `.0`, and what stands for values that are no numbers.
-/

namespace WorkflowGraph.Decimal

/-- The decisions a text format makes about numbers. -/
structure Layout where
  /-- How a tie between two shortest decimals goes. -/
  tie : Tie
  /-- The least and greatest exponents of the leading digit written without a power of ten;
  `none` writes every number so. -/
  positional : Option (Int × Int)
  /-- Whether a whole number keeps a `.0`. -/
  pointZero : Bool
  /-- Whether a positive power of ten carries a plus sign. -/
  plus : Bool
  /-- The text of a value that is no number. -/
  nan : String
  /-- The text of the positive and of the negative infinity. -/
  infinities : String × String

namespace Layout

variable (l : Layout)

/-- The digits `c * 10 ^ g` without a power of ten. -/
def inFull (c : Nat) (g : Int) : String :=
  let digits := Nat.repr c
  let before := (digits.length : Int) + g
  if before ≤ 0 then
    "0." ++ String.ofList (List.replicate (-before).toNat '0') ++ digits
  else if 0 ≤ g then
    digits ++ String.ofList (List.replicate g.toNat '0') ++ (if l.pointZero then ".0" else "")
  else
    String.ofList (digits.toList.take before.toNat) ++ "." ++
      String.ofList (digits.toList.drop before.toNat)

/-- The digits `c * 10 ^ g` with a point after the first and a power of ten. -/
def withPower (c : Nat) (g : Int) : String :=
  let digits := (Nat.repr c).toList
  let power := (digits.length : Int) - 1 + g
  let sign := if power < 0 then "-" else if l.plus then "+" else ""
  let rest := digits.drop 1
  String.ofList (digits.take 1) ++ (if rest.isEmpty then "" else "." ++ String.ofList rest) ++
    "e" ++ sign ++ Nat.repr power.natAbs

/-- The text of a positive finite number. -/
def positive (m : Nat) (q : Int) (narrow : Bool) : String :=
  let (c, g) := shortest l.tie m q narrow
  let power := ((Nat.repr c).length : Int) - 1 + g
  match l.positional with
  | none => l.inFull c g
  | some (least, greatest) =>
    if least ≤ power ∧ power ≤ greatest then l.inFull c g else l.withPower c g

/-- The text of a value. -/
def write : Magnitude → String
  | .nan => l.nan
  | .infinite negative => if negative then l.infinities.2 else l.infinities.1
  | .finite negative m q narrow =>
    (if negative then "-" else "") ++
      if m = 0 then (if l.pointZero then "0.0" else "0") else l.positive m q narrow

end Layout

/-- Numbers in JSON text.  A value that is no finite number is written `null`. -/
def Layout.json (least greatest : Int) : Layout :=
  ⟨.even, some (least, greatest), true, true, "null", ("null", "null")⟩

/-- Numbers in messages for people: never a power of ten. -/
def Layout.plain : Layout := ⟨.up, none, false, false, "NaN", ("inf", "-inf")⟩

/-- Numbers in descriptions of values: always recognisable as floating-point. -/
def Layout.precise : Layout := ⟨.up, some (-4, 15), true, false, "NaN", ("inf", "-inf")⟩

/-- The JSON text of a 32-bit number, in full from millionths up to twelve zeros. -/
def jsonSingle (x : Float32) : String := (Layout.json (-6) 12).write (.ofSingle x)

/-- The JSON text of a 64-bit number, in full from hundred-thousandths up to fifteen zeros. -/
def jsonDouble (x : Float) : String := (Layout.json (-5) 15).write (.ofDouble x)

/-- A 32-bit number in a message. -/
def plainSingle (x : Float32) : String := Layout.plain.write (.ofSingle x)

/-- A 32-bit number in a description. -/
def preciseSingle (x : Float32) : String := Layout.precise.write (.ofSingle x)

end WorkflowGraph.Decimal

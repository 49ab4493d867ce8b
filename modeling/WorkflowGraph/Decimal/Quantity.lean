import WorkflowGraph.Decimal.Magnitude

/-!
# Comparing numbers exactly

Every finite 32-bit floating-point number, and every integer, is a whole multiple of the
smallest positive 32-bit number.  A `Quantity` is such a multiple, or one of the two
infinities, and quantities are ordered as the numbers they stand for.
-/

namespace WorkflowGraph.Decimal

/-- A number that is a whole multiple of the smallest positive 32-bit number, or an infinity. -/
inductive Quantity where
  | negativeInfinity
  | units (n : Int)
  | positiveInfinity
deriving DecidableEq, Repr

namespace Quantity

/-- The number of units in one. -/
def one : Int := twoTo 149

/-- The quantity of an integer. -/
def ofInt (n : Int) : Quantity := .units (n * one)

/-- The quantity of a magnitude with 32 bits; what is no number has none. -/
def ofMagnitude? : Magnitude → Option Quantity
  | .nan => none
  | .infinite negative => some (if negative then .negativeInfinity else .positiveInfinity)
  | .finite negative m q _ =>
    let n : Int := m * twoTo (q + 149).toNat
    some (.units (if negative then -n else n))

/-- The quantity of a 32-bit number; what is no number has none. -/
def ofSingle? (x : Float32) : Option Quantity := ofMagnitude? (.ofSingle x)

/-- How two quantities are ordered. -/
def compare : Quantity → Quantity → Ordering
  | .negativeInfinity, .negativeInfinity => .eq
  | .negativeInfinity, _ => .lt
  | .units _, .negativeInfinity => .gt
  | .units a, .units b => Ord.compare a b
  | .units _, .positiveInfinity => .lt
  | .positiveInfinity, .positiveInfinity => .eq
  | .positiveInfinity, _ => .gt

end Quantity

end WorkflowGraph.Decimal

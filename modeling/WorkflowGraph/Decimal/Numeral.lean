/-!
# Decimal numerals and the numbers they denote

A `Numeral` is the written form of a number: sign, digits before the point, digits after it and
a power of ten.  `Numeral.value?` gives the number.  A numeral without point and power that
fits 64 bits is an integer; every other one is a 64-bit floating-point number, obtained by one
multiplication or division of the leading digits (as many as fit 64 bits) by a power of ten.
That last step may be off by one in the last place, which readers of such documents rely on.
-/

namespace WorkflowGraph.Decimal

/-- A written number.  Digits are given by their values, the most significant first; the
exponent carries its own sign. -/
structure Numeral where
  negative : Bool
  whole : List Nat
  fraction : Option (List Nat)
  exponent : Option (Bool × List Nat)

/-- A number read from text. -/
inductive Reading where
  | integer (n : Int)
  | double (x : Float)

namespace Numeral

/-- The number of values that fit 64 bits. -/
def words : Nat := 18446744073709551616

/-- Appends digits to a significand as long as it fits 64 bits; also gives the digits left
over. -/
def absorb : Nat → List Nat → Nat × List Nat
  | s, [] => (s, [])
  | s, d :: ds => if 10 * s + d < words then absorb (10 * s + d) ds else (s, d :: ds)

/-- The value of a list of digits. -/
def ofDigits (ds : List Nat) : Nat := ds.foldl (fun n d => 10 * n + d) 0

/-- The power of ten as a 64-bit number. -/
def doubleTenTo (n : Nat) : Float := Float.ofScientific 1 false n

/-- The number `f * 10 ^ e`, or nothing if it is too large.  Powers beyond the range of the
format are divided off in steps, until nothing is left of the number. -/
def scale (f : Float) (e : Int) : Option Float :=
  if 308 < e then
    if f == 0.0 then some f else none
  else if 0 ≤ e then
    let x := f * doubleTenTo e.toNat
    if x.isInf then none else some x
  else if -308 ≤ e then some (f / doubleTenTo (-e).toNat)
  else if f == 0.0 then some f
  else scale (f / doubleTenTo 308) (e + 308)
termination_by (-e).toNat

/-- The floating-point number with the given significand and power of ten, followed by the
written power.  A written power beyond 32 bits gives zero if it is negative or there is nothing
to multiply. -/
def float? (negative : Bool) (significand : Nat) (power : Int)
    (exponent : Option (Bool × List Nat)) : Option Float :=
  let signed (x : Float) : Float := if negative then -x else x
  match exponent with
  | none => (scale significand.toUInt64.toFloat power).map signed
  | some (down, ds) =>
    if 2147483647 < ofDigits ds then
      if significand ≠ 0 && !down then none else some (signed 0.0)
    else
      let written : Int := ofDigits ds
      (scale significand.toUInt64.toFloat (power + if down then -written else written)).map signed

/-- The number a numeral denotes, or nothing if it is too large for the format. -/
def value? (n : Numeral) : Option Reading :=
  let (significand, dropped) := absorb 0 n.whole
  match n.fraction, n.exponent, dropped with
  | none, none, [] =>
    if !n.negative then some (.integer significand)
    else if 0 < significand ∧ 2 * significand ≤ words then some (.integer (-(significand : Int)))
    else some (.double (-significand.toUInt64.toFloat))
  | fraction, exponent, _ =>
    let digits := fraction.getD []
    let (significand, unread) := absorb significand digits
    let power : Int := dropped.length - (digits.length - unread.length : Nat)
    (float? n.negative significand power exponent).map .double

end Numeral

end WorkflowGraph.Decimal

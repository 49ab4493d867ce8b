import WorkflowGraph.Decimal.Magnitude

/-!
# The shortest decimal that reads back

Every binary number owns an interval of reals: those that round to it.  Among the decimals in
that interval the text of a number is one with the fewest digits, and among those one nearest
to the number.  For each count of digits only the two neighbours of the number on the grid of
that many digits have to be looked at, because a grid that meets the interval at all meets it
in one of them.

All comparisons are made on naturals: the interval is given by three numerators over one
denominator, in units of a quarter of the last binary place.
-/

namespace WorkflowGraph.Decimal

/-- What to do when two decimals are equally near: take the one with the even last digit, or
the larger one. -/
inductive Tie where
  | even
  | up
deriving DecidableEq, Repr

/-- A positive number together with the reals that round to it, as numerators over `den`.  The
ends belong to the interval when `closed`. -/
structure Interval where
  low : Nat
  value : Nat
  high : Nat
  den : Nat
  closed : Bool

namespace Interval

/-- The interval of `m * 2 ^ q`.  The gap below is a quarter place instead of half a place when
`narrow`, and the ends round to the even neighbour. -/
def ofBinary (m : Nat) (q : Int) (narrow : Bool) : Interval :=
  let unit := twoTo (q - 2).toNat
  { low := (4 * m - if narrow then 1 else 2) * unit
    value := 4 * m * unit
    high := (4 * m + 2) * unit
    den := twoTo (2 - q).toNat
    closed := m % 2 == 0 }

/-- The least `k` from `start` on with `den ≤ num * 10 ^ k`. -/
def leastShift (num den : Nat) : Nat → Nat → Nat
  | 0, k => k
  | fuel + 1, k => if den ≤ num * tenTo k then k else leastShift num den fuel (k + 1)

/-- The exponent of the leading decimal digit of the value. -/
def leading (i : Interval) : Int :=
  if i.den ≤ i.value then ((Nat.toDigits 10 (i.value / i.den)).length : Int) - 1
  else - (leastShift i.value i.den (i.den.log2 + 1) 1 : Int)

/-- The multiple `c * 10 ^ g` as a numerator over `den`, scaled like the numerators of the
interval once both are multiplied by `10 ^ (-g)`. -/
def gridPoint (i : Interval) (g : Int) (c : Nat) : Nat := c * tenTo g.toNat * i.den

/-- A numerator of the interval on the scale of `gridPoint`. -/
def onGrid (g : Int) (numerator : Nat) : Nat := numerator * tenTo (-g).toNat

/-- Whether the decimal `c * 10 ^ g` rounds to the number. -/
def contains (i : Interval) (g : Int) (c : Nat) : Bool :=
  let point := i.gridPoint g c
  if i.closed then decide (onGrid g i.low ≤ point) && decide (point ≤ onGrid g i.high)
  else decide (onGrid g i.low < point) && decide (point < onGrid g i.high)

/-- The better of the two neighbours on the grid of step `10 ^ g`, if one is in the interval. -/
def neighbour (i : Interval) (tie : Tie) (g : Int) : Option Nat :=
  let value := onGrid g i.value
  let below := value / i.gridPoint g 1
  match i.contains g below, i.contains g (below + 1) with
  | false, false => none
  | true, false => some below
  | false, true => some (below + 1)
  | true, true =>
    let toBelow := value - i.gridPoint g below
    let toAbove := i.gridPoint g (below + 1) - value
    if toBelow < toAbove then some below
    else if toAbove < toBelow then some (below + 1)
    else match tie with
      | .even => some (if below % 2 = 0 then below else below + 1)
      | .up => some (below + 1)

/-- Tries grids of more and more digits, `digits` of them to go, the next of step `10 ^ g`. -/
def search (i : Interval) (tie : Tie) : Nat → Int → Nat × Int
  | 0, g => (onGrid g i.value / i.gridPoint g 1, g)
  | digits + 1, g =>
    match i.neighbour tie g with
    | some c => (c, g)
    | none => search i tie digits (g - 1)

end Interval

/-- Drops the zeros at the end of a decimal: `(c, g)` stands for `c * 10 ^ g`. -/
def dropZeros : Nat → Nat × Int → Nat × Int
  | 0, d => d
  | fuel + 1, (c, g) => if c % 10 = 0 then dropZeros fuel (c / 10, g + 1) else (c, g)

/-- The shortest decimal `(c, g)`, standing for `c * 10 ^ g`, that rounds to `m * 2 ^ q`; no
digit of `c` at the end is zero.  Seventeen digits are enough for the formats in use. -/
def shortest (tie : Tie) (m : Nat) (q : Int) (narrow : Bool) : Nat × Int :=
  let i := Interval.ofBinary m q narrow
  dropZeros 17 (i.search tie 17 i.leading)

end WorkflowGraph.Decimal

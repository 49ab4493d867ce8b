/-!
# Binary floating-point values, exactly

A bit pattern of a binary interchange format denotes a signed multiple of a power of two, an
infinity or no number.  `Width.decode` reads a pattern off as such a `Magnitude`, in exact
integers, so that everything said later about the text of a number or about the order of two
numbers is arithmetic of `Nat` and `Int`.  `Width.encode` goes the other way: it gives the
pattern of the nearest number of a format, which is how numbers pass from one width to the
other.
-/

namespace WorkflowGraph.Decimal

/-- A power of two. -/
def twoTo (n : Nat) : Nat := Nat.pow 2 n

/-- A power of ten. -/
def tenTo (n : Nat) : Nat := Nat.pow 10 n

/-- The widths of the fraction and exponent fields of a binary interchange format. -/
structure Width where
  fraction : Nat
  exponent : Nat
deriving DecidableEq, Repr

/-- The 32-bit format. -/
def Width.single : Width := ⟨23, 8⟩

/-- The 64-bit format. -/
def Width.double : Width := ⟨52, 11⟩

/-- What a bit pattern denotes.  The finite value is `m * 2 ^ q`, negated when `negative`;
`narrow` says that the next smaller value is only half as far away as the next larger one. -/
inductive Magnitude where
  | nan
  | infinite (negative : Bool)
  | finite (negative : Bool) (m : Nat) (q : Int) (narrow : Bool)
deriving DecidableEq, Repr

namespace Width

variable (w : Width)

/-- The exponent of the last fraction bit of the smallest numbers. -/
def floorExponent : Int := 2 - twoTo (w.exponent - 1) - w.fraction

/-- The value of a bit pattern. -/
def decode (bits : Nat) : Magnitude :=
  let fraction := bits % twoTo w.fraction
  let exponent := bits / twoTo w.fraction % twoTo w.exponent
  let negative := bits / twoTo (w.fraction + w.exponent) % 2 == 1
  if exponent = twoTo w.exponent - 1 then
    if fraction = 0 then .infinite negative else .nan
  else if exponent = 0 then .finite negative fraction w.floorExponent false
  else
    .finite negative (twoTo w.fraction + fraction) (w.floorExponent + exponent - 1)
      (fraction == 0 && 1 < exponent)

/-- The pattern of the positive infinity. -/
def infinity : Nat := (twoTo w.exponent - 1) * twoTo w.fraction

/-- The pattern of a sign. -/
def sign (negative : Bool) : Nat := if negative then twoTo (w.fraction + w.exponent) else 0

/-- The multiple of `2 ^ g` nearest to `m * 2 ^ q`, as a count; a tie goes to the even one. -/
def nearest (m : Nat) (q g : Int) : Nat :=
  let unit := twoTo (g - q).toNat
  let scaled := m * twoTo (q - g).toNat
  let below := scaled / unit
  let rest := scaled % unit
  if 2 * rest < unit then below
  else if unit < 2 * rest then below + 1
  else below + below % 2

/-- The pattern of the number nearest to a positive `m * 2 ^ q`.  The last place is that of the
smallest numbers or, for larger ones, as far below the leading bit as the fraction is wide; a
carry out of the fraction arrives in the exponent by itself. -/
def encodePositive (m : Nat) (q : Int) : Nat :=
  let place := max w.floorExponent (q + m.log2 - w.fraction)
  let pattern := (place - w.floorExponent).toNat * twoTo w.fraction + nearest m q place
  min pattern w.infinity

/-- The pattern of the number nearest to a magnitude. -/
def encode : Magnitude → Nat
  | .nan => w.infinity + twoTo (w.fraction - 1)
  | .infinite negative => w.sign negative + w.infinity
  | .finite negative m q _ => w.sign negative + if m = 0 then 0 else w.encodePositive m q

end Width

/-- The value of a 32-bit number. -/
def Magnitude.ofSingle (x : Float32) : Magnitude := Width.single.decode x.toBits.toNat

/-- The value of a 64-bit number. -/
def Magnitude.ofDouble (x : Float) : Magnitude := Width.double.decode x.toBits.toNat

/-- The 32-bit number nearest to a 64-bit number. -/
def narrow (x : Float) : Float32 :=
  .ofBits (Width.single.encode (.ofDouble x)).toUInt32

/-- The 64-bit number equal to a 32-bit number. -/
def widen (x : Float32) : Float :=
  .ofBits (Width.double.encode (.ofSingle x)).toUInt64

end WorkflowGraph.Decimal

/-!
# TypedTables — binary floating point by its bits

Real column values are IEEE 754 numbers, and every conversion of them
that an answer can show is exact: a number is decoded to `m · 2^q`, the
conversion is done on fractions of natural numbers, and the result is
rounded once, to the nearest number of the target format and to the even
one on a tie. `BinaryFormat.nearest` is that one rounding step; integers,
decimal numerals and numbers of the narrower format all go through it.
-/

namespace TypedTables

/-- The parameters of a binary interchange format. -/
structure BinaryFormat where
  /-- Bits of the significand, the leading one included. -/
  precision : Nat
  /-- Bits of the biased exponent. -/
  exponentBits : Nat
deriving Repr, DecidableEq

namespace BinaryFormat

def double : BinaryFormat := ⟨53, 11⟩

def single : BinaryFormat := ⟨24, 8⟩

/-- The exponent `q` of the least positive number `1 · 2^q`. -/
def minExponent (f : BinaryFormat) : Int := 3 - Nat.pow 2 (f.exponentBits - 1) - f.precision

/-- The leading bit of a significand. It is not among the bits of a number. -/
def leadingBit (f : BinaryFormat) : Nat := Nat.pow 2 (f.precision - 1)

/-- The bits of infinity, sign aside. Larger bit patterns are NaNs. -/
def infinity (f : BinaryFormat) : Nat := (Nat.pow 2 f.exponentBits - 1) * f.leadingBit

/-- The bits of the finite number `m · 2^q`, where `q` is at least the
least exponent and `m` has its leading bit set unless `q` is that least
exponent. Carrying into the exponent makes `m = 2^precision` come out
right as well. -/
def encode (f : BinaryFormat) (m : Nat) (q : Int) : Nat :=
  (q - f.minExponent).toNat * f.leadingBit + m

/-- The parts `(m, q)` of the finite number `m · 2^q` with these bits. -/
def decode (f : BinaryFormat) (bits : Nat) : Nat × Int :=
  let biased := bits / f.leadingBit
  let fraction := bits % f.leadingBit
  if biased = 0 then (fraction, f.minExponent)
  else (fraction + f.leadingBit, f.minExponent + biased - 1)

/-- The quotient rounded to the nearest integer, a tie to the even one. -/
def roundEven (num den : Nat) : Nat :=
  let q := num / den
  let r := num % den
  if 2 * r < den then q
  else if den < 2 * r then q + 1
  else if q % 2 = 0 then q else q + 1

/-- The fraction `num / den` divided by `2^q`, as a fraction again. -/
def scaleDown (num den : Nat) (q : Int) : Nat × Nat :=
  if 0 ≤ q then (num, den * Nat.pow 2 q.toNat) else (num * Nat.pow 2 (-q).toNat, den)

/-- The bits of the number nearest to `num / den`, a tie going to the even
significand and a fraction too large for the format to infinity. -/
def nearest (f : BinaryFormat) (num den : Nat) : Nat :=
  if num = 0 then 0
  else
    let guess := max f.minExponent ((Nat.log2 num : Int) - Nat.log2 den - f.precision)
    let (n, d) := scaleDown num den guess
    let (q, n, d) :=
      if d * Nat.pow 2 f.precision ≤ n then (guess + 1, scaleDown num den (guess + 1))
      else (guess, n, d)
    min f.infinity (f.encode (roundEven n d) q)

end BinaryFormat

/-- A number of the 64-bit format, given by its bits. Two NaNs are the same
number here when their bits are, and the two zeros differ. -/
structure Double where
  bits : UInt64
deriving Repr, DecidableEq, Inhabited

/-- A number of the 32-bit format, given by its bits. -/
structure Single where
  bits : UInt32
deriving Repr, DecidableEq, Inhabited

namespace Single

/-- The bit that makes a number negative. -/
def signBit : Nat := 0x8000_0000

/-- The bit that sets a NaN of the usual kind off from infinity. -/
def quietBit : Nat := 0x40_0000

/-- How many steps between numbers of the 64-bit format make one step between
numbers of this format. -/
def spacing : Nat := 0x2000_0000

end Single

namespace Double

/-- The bit that makes a number negative. -/
def signBit : Nat := 0x8000_0000_0000_0000

/-- The bit that sets a NaN of the usual kind off from infinity. -/
def quietBit : Nat := 0x8_0000_0000_0000

/-- Whether the sign bit is set. -/
def isNegative (x : Double) : Bool := signBit ≤ x.bits.toNat

/-- The bits without the sign. -/
def magnitude (x : Double) : Nat := x.bits.toNat % signBit

def isNaN (x : Double) : Bool := BinaryFormat.double.infinity < x.magnitude

def isInfinite (x : Double) : Bool := x.magnitude == BinaryFormat.double.infinity

def isFinite (x : Double) : Bool := x.magnitude < BinaryFormat.double.infinity

def isZero (x : Double) : Bool := x.magnitude == 0

/-- The number with the given sign and the given bits of its magnitude. -/
def ofMagnitude (negative : Bool) (magnitude : Nat) : Double :=
  ⟨UInt64.ofNat (magnitude + if negative then signBit else 0)⟩

/-- The number nearest to `±num / den`. -/
def ofRatio (negative : Bool) (num den : Nat) : Double :=
  ofMagnitude negative (BinaryFormat.double.nearest num den)

def nan : Double := ofMagnitude false (BinaryFormat.double.infinity + quietBit)

def infinity (negative : Bool) : Double := ofMagnitude negative BinaryFormat.double.infinity

/-- The number nearest to an integer. -/
def ofInt (n : Int) : Double := ofRatio (n < 0) n.natAbs 1

/-- The magnitude of a finite number as a fraction. -/
def ratio (x : Double) : Nat × Nat :=
  let (m, q) := BinaryFormat.double.decode x.magnitude
  if 0 ≤ q then (m * Nat.pow 2 q.toNat, 1) else (m, Nat.pow 2 (-q).toNat)

/-- The product of the magnitudes of two finite numbers, rounded once. -/
def mulMagnitude (x y : Double) : Double :=
  ofRatio false (x.ratio.1 * y.ratio.1) (x.ratio.2 * y.ratio.2)

/-- The quotient of the magnitudes of two finite numbers, rounded once. -/
def divMagnitude (x y : Double) : Double :=
  ofRatio false (x.ratio.1 * y.ratio.2) (x.ratio.2 * y.ratio.1)

/-- The number with the other sign. -/
def neg (x : Double) : Double := ofMagnitude (!x.isNegative) x.magnitude

/-- The nearest number of the 32-bit format. A NaN stays one and keeps the
leading bits of its payload. -/
def toSingle (x : Double) : Single :=
  let sign := if x.isNegative then Single.signBit else 0
  let magnitude :=
    if x.isNaN then
      BinaryFormat.single.infinity + (x.magnitude % BinaryFormat.double.leadingBit / Single.spacing ||| Single.quietBit)
    else if x.isInfinite then BinaryFormat.single.infinity
    else BinaryFormat.single.nearest x.ratio.1 x.ratio.2
  ⟨UInt32.ofNat (magnitude + sign)⟩

/-- Position on the number line: finite numbers and infinities are ordered
as these integers are, and the two zeros share one. -/
def rank (x : Double) : Int := if x.isNegative then -(x.magnitude : Int) else x.magnitude

end Double

namespace Single

def isNegative (x : Single) : Bool := signBit ≤ x.bits.toNat

def magnitude (x : Single) : Nat := x.bits.toNat % signBit

def isNaN (x : Single) : Bool := BinaryFormat.single.infinity < x.magnitude

/-- The same number in the 64-bit format, which holds every number of the
32-bit one. -/
def toDouble (x : Single) : Double :=
  let magnitude :=
    if BinaryFormat.single.infinity ≤ x.magnitude then
      BinaryFormat.double.infinity + (x.magnitude - BinaryFormat.single.infinity) * spacing +
        (if x.isNaN && x.magnitude % BinaryFormat.single.leadingBit < quietBit then Double.quietBit else 0)
    else
      let (m, q) := BinaryFormat.single.decode x.magnitude
      if 0 ≤ q then BinaryFormat.double.nearest (m * Nat.pow 2 q.toNat) 1
      else BinaryFormat.double.nearest m (Nat.pow 2 (-q).toNat)
  Double.ofMagnitude x.isNegative magnitude

end Single

end TypedTables

import TypedTables.Decimal.Binary
/-!
# TypedTables — decimals of a real

A real is written with the fewest significant digits that read back as the
same number, and among those with the digits nearest to it; which of two
equally near ones it is differs between formats. The numbers
that read back as `m · 2^q` form an interval around it; `Double.shortest`
tries one digit, two digits and so on, and each time tests the two
neighbours of the value on that decimal grid in exact arithmetic. If any
point of the grid lies in the interval, one of these two does.

In a fixed number of significant digits it is the nearest decimal. Of two that are
equally near it is the one further from zero.
-/

namespace TypedTables

/-- The number `coefficient · 10^exponent`. -/
structure Decimal where
  coefficient : Nat
  exponent : Int
deriving Repr, DecidableEq

/-- Where a number goes that lies halfway between two decimals. -/
inductive Tie
  /-- To the one with the even last digit. -/
  | toEven
  /-- To the one that is further from zero. -/
  | away
deriving Repr, DecidableEq

/-- Whether a number halfway above the given coefficient goes down to it. -/
def Tie.staysBelow : Tie → Nat → Bool
  | .toEven, coefficient => coefficient % 2 == 0
  | .away, _ => false

namespace Decimal

/-- Moves the zeros at the end of the coefficient into the exponent. -/
def stripZeros : Nat → Decimal → Decimal
  | 0, d => d
  | fuel + 1, d =>
    if d.coefficient ≠ 0 ∧ d.coefficient % 10 = 0 then
      stripZeros fuel ⟨d.coefficient / 10, d.exponent + 1⟩
    else d

/-- The greatest `e` with `10^e ≤ num / den`, for a positive fraction. The
binary logarithm bounds it to four candidates. -/
def floorLog (num den : Nat) : Int :=
  let guess := (((Nat.log2 num : Int) - Nat.log2 den - 1) * 30103) / 100000
  let fits (e : Int) : Bool :=
    if 0 ≤ e then den * Nat.pow 10 e.toNat ≤ num else den ≤ num * Nat.pow 10 (-e).toNat
  if fits (guess + 2) then guess + 2
  else if fits (guess + 1) then guess + 1
  else if fits guess then guess
  else guess - 1

end Decimal

/-- The positive reals that round to one number, in units of `2^unit`. -/
structure RoundingInterval where
  low : Nat
  value : Nat
  high : Nat
  unit : Int
  /-- Whether the two ends round to the number as well. -/
  closed : Bool

namespace RoundingInterval

/-- The interval of `m · 2^q`: half a step to either side, a quarter step
down where the numbers below lie twice as dense. A tie goes to the even
significand, so the ends belong to an even one. -/
def ofParts (m : Nat) (q : Int) : RoundingInterval :=
  let dense := m = BinaryFormat.double.leadingBit ∧ BinaryFormat.double.minExponent < q
  { low := 4 * m - if dense then 1 else 2
    value := 4 * m
    high := 4 * m + 2
    unit := q - 2
    closed := m % 2 = 0 }

/-- Whether `c · 10^e` lies in the interval. -/
def contains (r : RoundingInterval) (c : Nat) (e : Int) : Bool :=
  let ten := Nat.pow 10 e.natAbs
  let two := Nat.pow 2 r.unit.natAbs
  let num := (if 0 ≤ e then c * ten else c) * (if r.unit < 0 then two else 1)
  let den := (if e < 0 then ten else 1) * (if 0 ≤ r.unit then two else 1)
  if r.closed then r.low * den ≤ num && num ≤ r.high * den
  else r.low * den < num && num < r.high * den

/-- The number as a fraction. -/
def ratio (r : RoundingInterval) : Nat × Nat :=
  if 0 ≤ r.unit then (r.value * Nat.pow 2 r.unit.toNat, 1) else (r.value, Nat.pow 2 (-r.unit).toNat)

/-- The decimal of the given count of digits that lies in the interval
nearest to its number, if one does. A tie goes where it is told to. -/
def decimal? (r : RoundingInterval) (tie : Tie) (digits : Nat) : Option Decimal :=
  let (num, den) := r.ratio
  let e := Decimal.floorLog num den - digits + 1
  let (n, d) := if 0 ≤ e then (num, den * Nat.pow 10 e.toNat) else (num * Nat.pow 10 (-e).toNat, den)
  let below := n / d
  let rest := n % d
  let nearBelow := 2 * rest < d ∨ 2 * rest = d ∧ tie.staysBelow below
  match r.contains below e, r.contains (below + 1) e with
  | true, true => some ⟨if nearBelow then below else below + 1, e⟩
  | true, false => some ⟨below, e⟩
  | false, true => some ⟨below + 1, e⟩
  | false, false => none

end RoundingInterval

/-- The shortest decimal of the magnitude of a finite number. Seventeen
digits are always enough. -/
def Double.shortest (x : Double) (tie : Tie) : Decimal :=
  if x.isZero then ⟨0, 0⟩
  else
    let (m, q) := BinaryFormat.double.decode x.magnitude
    let found := (List.range 17).findSome? fun n => (RoundingInterval.ofParts m q).decimal? tie (n + 1)
    (found.getD ⟨0, 0⟩).stripZeros 20

/-! ## A fixed number of digits -/

namespace Decimal

/-- The quotient rounded to the nearest integer, a half upwards. -/
def roundHalfUp (num den : Nat) : Nat := (2 * num + den) / (2 * den)

/-- The nearest decimal of a positive fraction with the given number of
digits. -/
def ofRatio (digits num den : Nat) : Decimal :=
  let e := floorLog num den - digits + 1
  if 0 ≤ e then ⟨roundHalfUp num (den * Nat.pow 10 e.toNat), e⟩
  else ⟨roundHalfUp (num * Nat.pow 10 (-e).toNat) den, e⟩

end Decimal

/-- The magnitude of a finite number in the given number of digits, without
the zeros at its end. -/
def Double.rounded (x : Double) (digits : Nat) : Decimal :=
  if x.isZero then ⟨0, 0⟩
  else (Decimal.ofRatio digits x.ratio.1 x.ratio.2).stripZeros (digits + 1)

end TypedTables

import TypedTables.Decimal.Binary
/-!
# TypedTables — decimal numerals

A numeral as it is written: a sign, digits before and after the point, and
an exponent. Two readings of one are in use. `Numeral.toDouble` is the
nearest real. `Numeral.scaled` is the reading of the JSON format, which
gathers the leading digits in a machine word and then multiplies or divides
by one power of ten, so that it rounds up to three times and a long numeral
may come out one step away from the nearest real.
-/

namespace TypedTables

/-- A decimal numeral: digits, most significant first, and an exponent. -/
structure Numeral where
  negative : Bool
  whole : List Nat
  fraction : List Nat
  exponent : Int
deriving Repr, DecidableEq

namespace Numeral

/-- The value of a digit character. -/
def digit? (c : Char) : Option Nat := if c.isDigit then some (c.toNat - '0'.toNat) else none

/-- The digits at the start of a text, and the rest of it. -/
def takeDigits : List Char → List Nat × List Char
  | [] => ([], [])
  | c :: cs =>
    match digit? c with
    | some d => let (ds, rest) := takeDigits cs; (d :: ds, rest)
    | none => ([], c :: cs)

/-- The number that a row of digits stands for. -/
def ofDigits (ds : List Nat) : Nat := ds.foldl (fun n d => 10 * n + d) 0

/-- Exponents past this bound do not change how a numeral reads: with so
few digits before it, the number is zero or infinite in any case. -/
def exponentBound (ds : List Nat) : Nat := ds.length + 400

/-- The nearest real, infinite where the numeral is too large. -/
def toDouble (n : Numeral) : Double :=
  let digits := n.whole ++ n.fraction
  let coefficient := ofDigits digits
  let exponent := n.exponent - n.fraction.length
  if coefficient = 0 then Double.ofMagnitude n.negative 0
  else if (exponentBound digits : Int) < exponent then Double.infinity n.negative
  else if exponent < -(exponentBound digits : Int) then Double.ofMagnitude n.negative 0
  else if 0 ≤ exponent then Double.ofRatio n.negative (coefficient * Nat.pow 10 exponent.toNat) 1
  else Double.ofRatio n.negative coefficient (Nat.pow 10 (-exponent).toNat)

/-- The longest row of leading digits whose number fits an unsigned word of
64 bits, as that number, and the digits that are left. -/
def takeWord (acc : Nat) : List Nat → Nat × List Nat
  | [] => (acc, [])
  | d :: ds => if acc * 10 + d < UInt64.size then takeWord (acc * 10 + d) ds else (acc, d :: ds)

/-- Scales by a power of ten. A power beyond the largest real one is taken
in steps when it divides and is refused when it multiplies. -/
def scaleBy (fuel : Nat) (x : Double) (exponent : Int) : Option Double :=
  let power (k : Nat) : Double := Double.ofRatio false (Nat.pow 10 k) 1
  if exponent.natAbs ≤ 308 then
    let y := if 0 ≤ exponent then x.mulMagnitude (power exponent.toNat)
      else x.divMagnitude (power (-exponent).toNat)
    if y.isInfinite then none else some y
  else if x.isZero then some x
  else if 0 ≤ exponent then none
  else
    match fuel with
    | 0 => some (Double.ofMagnitude false 0)
    | fuel + 1 => scaleBy fuel (x.divMagnitude (power 308)) (exponent + 308)

/-- The reading of the JSON format: a word of leading digits, scaled by the
power of ten that is left. Digits that do not fit the word count as zeros.
A numeral too large for a real has no reading. -/
def scaled (n : Numeral) : Option Double :=
  let (head, left) := takeWord 0 n.whole
  let (word, rest) := takeWord head n.fraction
  let exponent := n.exponent + left.length - (n.fraction.length - rest.length : Nat)
  (scaleBy 4 (Double.ofRatio false word 1) exponent).map fun x =>
    if n.negative then x.neg else x

end Numeral

end TypedTables

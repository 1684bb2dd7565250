import TypedTables.Decimal.Shortest
/-!
# TypedTables — laying out the digits of a real

`Double.shortest` chooses the digits; a `RealLayout` says how they are set
out: between which bounds the point is placed among them, and how an
exponent is written otherwise. Each text format that holds reals has its
own layout, declared beside the format.
-/

namespace TypedTables

/-- How a format writes a real. -/
structure RealLayout where
  /-- The least and the greatest power of ten of the leading digit that are
  written without an exponent; `none` writes every real so. -/
  plain : Option (Int × Int)
  /-- What stands before an exponent that is not negative. -/
  positiveExponent : String
  /-- Which of two equally near shortest decimals is written. -/
  tie : Tie
  nan : String
  infinity : String
deriving Repr

namespace RealLayout

/-- The sign as it is written. -/
def sign (negative : Bool) : String := if negative then "-" else ""

/-- The decimal written with a point among or around its digits, and with
at least one digit on either side of it. -/
def positional (d : Decimal) : String :=
  let digits := (Nat.repr d.coefficient).toList
  if 0 ≤ d.exponent then
    String.ofList (digits ++ List.replicate d.exponent.toNat '0' ++ ['.', '0'])
  else
    let places := (-d.exponent).toNat
    if places < digits.length then
      let whole := digits.length - places
      String.ofList (digits.take whole ++ '.' :: digits.drop whole)
    else
      String.ofList ('0' :: '.' :: (List.replicate (places - digits.length) '0' ++ digits))

/-- The decimal written with one digit before the point and an exponent. -/
def exponential (l : RealLayout) (d : Decimal) : String :=
  let digits := (Nat.repr d.coefficient).toList
  let power := d.exponent + digits.length - 1
  let mantissa :=
    match digits with
    | [] => []
    | [c] => [c]
    | c :: rest => c :: '.' :: rest
  String.ofList mantissa ++ "e" ++ (if 0 ≤ power then l.positiveExponent else "") ++ toString power

/-- The text of a real. -/
def render (l : RealLayout) (x : Double) : String :=
  if x.isNaN then l.nan
  else if x.isInfinite then sign x.isNegative ++ l.infinity
  else
    let d := x.shortest l.tie
    let power := d.exponent + (Nat.repr d.coefficient).length - 1
    let isPlain :=
      match l.plain with
      | none => true
      | some (least, greatest) => x.isZero || (least ≤ power && power ≤ greatest)
    sign x.isNegative ++ if isPlain then positional d else l.exponential d

end RealLayout

end TypedTables

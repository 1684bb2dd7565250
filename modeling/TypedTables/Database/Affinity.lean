import TypedTables.Database.Keyword
import TypedTables.Database.Token
import TypedTables.Decimal.Layout
import TypedTables.Decimal.Shortest
/-!
# TypedTables — column affinities

A column prefers a kind of cell but does not insist: a value is converted
to that kind where nothing is lost by it, and stored as it is otherwise.
The same conversions make the two sides of a comparison alike.
-/

namespace TypedTables

/-- The kind of cell a column prefers. -/
inductive ColumnAffinity
  | integer
  | real
  | numeric
  | text
  | blob
deriving Repr, DecidableEq

namespace ColumnAffinity

/-- Whether a text occurs in another. -/
def occursIn (part : List Char) : List Char → Bool
  | [] => part.isEmpty
  | c :: cs => part.isPrefixOf (c :: cs) || occursIn part cs

/-- The affinity of a column of a declared type. It is found by the parts of
the type's name; a column without a type prefers nothing. -/
def ofTypeName (name : String) : ColumnAffinity :=
  let folded := (Keyword.fold name).toList
  let has (part : String) : Bool := occursIn part.toList folded
  if has "int" then .integer
  else if has "char" || has "clob" || has "text" then .text
  else if has "blob" || name.isEmpty then .blob
  else if has "real" || has "floa" || has "doub" then .real
  else .numeric

/-- The room that a column of a declared type is thought to need, where an
integer needs one. -/
def widthOf (typeName : String) : Nat :=
  match ofTypeName typeName with
  | .text | .blob => if typeName.isEmpty then 1 else 5
  | .integer | .real | .numeric => 1

/-- Whether the column prefers numbers. -/
def isNumeric : ColumnAffinity → Bool
  | .integer | .real | .numeric => true
  | .text | .blob => false

end ColumnAffinity

namespace Cell

/-- An exponent of at least two digits, with its sign. -/
def exponentText (power : Int) : String :=
  let digits := Nat.repr power.natAbs
  (if power < 0 then "-" else "+") ++ (if digits.length < 2 then "0" ++ digits else digits)

/-- The text of a real: fifteen significant digits, with an exponent where
the first of them stands for less than `10^-4` or for more than `10^14`. -/
def realText (x : Double) : String :=
  if x.isNaN then ""
  else if x.isInfinite then RealLayout.sign x.isNegative ++ "Inf"
  else
    let d := x.rounded 15
    let digits := (Nat.repr d.coefficient).toList
    let power := d.exponent + digits.length - 1
    if x.isZero then "0.0"
    else if power < -4 || 14 < power then
      let fraction := if digits.length < 2 then ['0'] else digits.tail
      RealLayout.sign x.isNegative ++ String.ofList (digits.take 1 ++ '.' :: fraction) ++ "e" ++
        exponentText power
    else RealLayout.sign x.isNegative ++ RealLayout.positional d

/-- The sign at the start of a text. -/
def readSign : List Char → Bool × List Char
  | '-' :: rest => (true, rest)
  | '+' :: rest => (false, rest)
  | rest => (false, rest)

/-- The number with the other sign. -/
def negate : Value → Value
  | .integer n => .integer (-n)
  | .real x => .real x.neg
  | v => v

/-- The number at the start of a text, and the rest. -/
def readNumber (cs : List Char) : Option (Value × List Char) :=
  let (negative, rest) := readSign (cs.dropWhile Token.isBlank)
  let (whole, afterWhole) := Numeral.takeDigits rest
  let fraction := Token.readFraction afterWhole
  let (digits, afterFraction) := fraction.getD ([], afterWhole)
  let exponent := Token.readExponent afterFraction
  let (power, rest) := exponent.getD (0, afterFraction)
  if whole.isEmpty && digits.isEmpty then none
  else
    let n : Int := if negative then -(Numeral.ofDigits whole : Int) else Numeral.ofDigits whole
    let n := if fraction.isNone && exponent.isNone then int64? n else none
    some ((n.map Value.integer).getD (.real (Numeral.toDouble ⟨negative, whole, digits, power⟩)), rest)

/-- The number that a text stands for, blanks around it aside. -/
def numberOfText? (s : String) : Option Value := do
  let (v, rest) ← readNumber s.toList
  if rest.all Token.isBlank then some v else none

/-- A real that is a whole number of 64 bits, as an integer. -/
def integerOfReal? (x : Double) : Option Int64 :=
  if !x.isFinite then none
  else
    let (num, den) := x.ratio
    if num % den = 0 then
      let n : Int := if x.isNegative then -((num / den : Nat) : Int) else (num / den : Nat)
      if Int64.minValue.toInt < n && n < Int64.maxValue.toInt then some (Int64.ofInt n) else none
    else none

/-- A value as a number, if it is one or reads as one. -/
def toNumber : Value → Value
  | .text s => (numberOfText? s).getD (.text s)
  | v => v

/-- A value as a text, if it is a number. -/
def toText : Value → Value
  | .integer n => .text (toString n.toInt)
  | .real x => .text (realText x)
  | v => v

/-- A real as an integer, where it is a whole number. -/
def toWhole : Value → Value
  | .real x =>
    match integerOfReal? x with
    | some n => .integer n
    | none => .real x
  | v => v

/-- An integer as a real. -/
def toReal : Value → Value
  | .integer n => .real (.ofInt n.toInt)
  | v => v

/-- The cell that a column of some affinity stores for a value. Whole reals
are kept as integers even in a column of reals, which loses the sign of a
zero. -/
def stored (a : ColumnAffinity) (v : Value) : Value :=
  match a with
  | .integer | .numeric => toWhole (toNumber v)
  | .real => toReal (toWhole (toNumber v))
  | .text => toText v
  | .blob => v

/-- Makes two operands alike. A side without an affinity, or with one for
texts, gives way to a side that prefers numbers, and a side without an
affinity to one that prefers texts. -/
def alike (a b : Option ColumnAffinity × Value) : Value × Value :=
  let isNumeric (x : Option ColumnAffinity) : Bool := x.any ColumnAffinity.isNumeric
  if isNumeric a.1 && !isNumeric b.1 then (a.2, toNumber b.2)
  else if isNumeric b.1 && !isNumeric a.1 then (toNumber a.2, b.2)
  else if a.1 == some .text && b.1.isNone then (a.2, toText b.2)
  else if b.1 == some .text && a.1.isNone then (toText a.2, b.2)
  else (a.2, b.2)

end Cell

end TypedTables

import TypedTables.Database.Affinity
import TypedTables.Sql.Ordering
import TypedTables.Text.Utf8
/-!
# TypedTables — the order of cells

Cells are ordered first by what they are: empty cells before numbers,
numbers before texts, texts before blobs. Numbers are compared by their
value, whether integer or real, texts under a collation, and blobs byte by
byte. Comparisons in a condition are three-valued: an empty cell is neither
equal to anything nor different from it.
-/

namespace TypedTables

namespace Cell

/-- The order of an integer and a finite or infinite real. -/
def compareIntegerReal (n : Int) (x : Double) : Ordering :=
  if x.isInfinite then (if x.isNegative then .gt else .lt)
  else
    let (num, den) := x.ratio
    compare (n * den) (if x.isNegative then -(num : Int) else num)

/-- The order of two rows of bytes. -/
def compareBytes : List UInt8 → List UInt8 → Ordering
  | [], [] => .eq
  | [], _ :: _ => .lt
  | _ :: _, [] => .gt
  | a :: as, b :: bs => (compare a.toNat b.toNat).then (compareBytes as bs)

/-- A text as a collation sees it. -/
def collationKey (c : Collation) (s : String) : String :=
  match c with
  | .none | .binary => s
  | .noCase => Keyword.fold s
  | .rTrim => String.ofList (s.toList.reverse.dropWhile (· == ' ')).reverse

/-- The place of a kind of cell in the order. -/
def classRank : Value → Nat
  | .null => 0
  | .integer _ | .real _ => 1
  | .text _ => 2
  | .blob _ => 3

/-- The order of two cells under a collation. -/
def order (c : Collation) (a b : Value) : Ordering :=
  match a, b with
  | .integer m, .integer n => compare m.toInt n.toInt
  | .integer m, .real y => compareIntegerReal m.toInt y
  | .real x, .integer n => (compareIntegerReal n.toInt x).swap
  | .real x, .real y => compare x.rank y.rank
  | .text s, .text t => compare (collationKey c s) (collationKey c t)
  | .blob s, .blob t => compareBytes s t
  | a, b => compare (classRank a) (classRank b)

/-- Whether two cells are the same, empty ones included. -/
def same (a b : Value) : Bool := order .binary a b == .eq

/-- The order of two cells, if neither is empty. -/
def order? (a b : Value) : Option Ordering :=
  if a.isNull || b.isNull then none else some (order .binary a b)

end Cell

namespace Truth

/-- The truth value of a cell. Texts count as the number they start with. -/
def ofValue : Value → Option Bool
  | .null => none
  | .integer n => some (n != 0)
  | .real x => some (!x.isZero)
  | .text s =>
    match Cell.readNumber s.toList with
    | some (.integer n, _) => some (n != 0)
    | some (.real x, _) => some (!x.isZero)
    | _ => some false
  | .blob _ => some false

/-- The cell of a truth value. -/
def toValue : Option Bool → Value
  | some b => .ofBool b
  | none => .null

def not (a : Option Bool) : Option Bool := a.map (!·)

/-- False as soon as one side is. -/
def and : Option Bool → Option Bool → Option Bool
  | some false, _ | _, some false => some false
  | some true, some true => some true
  | _, _ => none

/-- True as soon as one side is. -/
def or : Option Bool → Option Bool → Option Bool
  | some true, _ | _, some true => some true
  | some false, some false => some false
  | _, _ => none

end Truth

namespace Cell

/-- The bytes that can go on with a character. -/
def isContinuation (b : UInt8) : Bool := b.toNat / 64 == 2

/-- The number that a byte gives to a character it starts. -/
def leadingNumber (b : Nat) : Nat :=
  if b < 0xE0 then b % 0x20 else if b < 0xF0 then b % 0x10 else if b < 0xF8 then b % 0x08
  else if b < 0xFC then b % 0x04 else b % 0x02

/-- The number of a character, or the number that stands for no character. -/
def matchedNumber (n : Nat) : Nat :=
  if n < 0x80 || (0xD800 ≤ n && n ≤ 0xDFFF) || n == 0xFFFE || n == 0xFFFF then 0xFFFD else n

/-- The characters that end at a byte, by their numbers, and the number so
far of the character that may go on behind it. -/
def takeByte (pending : Option Nat) (b : UInt8) : List Nat × Option Nat :=
  match pending, isContinuation b with
  | some n, true => ([], some (n * 64 + b.toNat % 64))
  | pending, _ =>
    let ended := (pending.map matchedNumber).toList
    if b < 0xC0 then (ended ++ [b.toNat], none) else (ended, some (leadingNumber b.toNat))

/-- The characters of bytes, up to the first byte of zero, by their numbers.
All bytes are read, whether or not they are the bytes of a text. -/
def matchedNumbers (pending : Option Nat) : List UInt8 → List Nat
  | [] => (pending.map matchedNumber).toList
  | b :: rest =>
    if b = 0 then (pending.map matchedNumber).toList
    else
      let (ended, pending) := takeByte pending b
      ended ++ matchedNumbers pending rest

/-- An ASCII letter in lower case. -/
def foldNumber (n : Nat) : Nat := if 65 ≤ n && n ≤ 90 then n + 32 else n

/-- Whether a text fits a pattern, in which a percent sign stands for any
text and an underscore for any character. Every step takes a character of
the text or of the pattern, so their lengths bound the steps. -/
def fits : (fuel : Nat) → (pattern text : List Nat) → Bool
  | 0, _, _ => false
  | _ + 1, [], text => text.isEmpty
  | fuel + 1, p :: pattern, text =>
    if p = '%'.toNat then
      fits fuel pattern text ||
        match text with
        | [] => false
        | _ :: rest => fits fuel (p :: pattern) rest
    else
      match text with
      | [] => false
      | c :: rest => (p == '_'.toNat || foldNumber p == foldNumber c) && fits fuel pattern rest

/-- A cell as characters to be matched. Numbers are matched by their text,
and blobs by the characters that their bytes stand for. -/
def matched (v : Value) : List Nat :=
  match toText v with
  | .text s => matchedNumbers none s.toUTF8.toList
  | .blob bytes => matchedNumbers none bytes
  | _ => []

/-- Whether a cell fits a pattern. -/
def like? (pattern value : Value) : Option Bool :=
  if pattern.isNull || value.isNull then none
  else
    let p := matched pattern
    let s := matched value
    some (fits (p.length + s.length + 1) p s)

end Cell

end TypedTables

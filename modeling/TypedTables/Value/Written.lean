import TypedTables.Document.Decoder
import TypedTables.Document.Json.Reader
import TypedTables.Value
/-!
# TypedTables — the written form of values

How cells are written as documents and read back. Empty cells, integers and
texts stand for themselves. A real is written by its bits and a blob by its
bytes, both in hexadecimal digits, so that nothing is rounded; only what is
not a number is written by that name.
-/

namespace TypedTables

namespace Text

/-- A number in hexadecimal digits, of which there are at least as many as
asked for. -/
def hex (width n : Nat) : String :=
  let digits := Nat.toDigits 16 n
  String.ofList (List.replicate (width - digits.length) '0' ++ digits)

/-- The number of a row of hexadecimal digits. -/
def numberOfHex? (s : String) : Option Nat :=
  s.toList.foldl (fun n? c => do return 16 * (← n?) + (← Json.hexValue? c)) (some 0)

/-- The bytes of pairs of hexadecimal digits. -/
def bytesOfHex? : List Char → Option (List UInt8)
  | [] => some []
  | [_] => none
  | a :: b :: rest => do
    let byte := 16 * (← Json.hexValue? a) + (← Json.hexValue? b)
    return UInt8.ofNat byte :: (← bytesOfHex? rest)

end Text

/-- An integer of 64 bits. -/
def Decoder.int64 : Decoder Int64
  | _, .integer n => int64? n
  | _, _ => none

namespace Value

def toDocument : Value → Document
  | .null => .null
  | .integer n => .integer n.toInt
  | .real x => .map [("real", .text (if x.isNaN then "nan" else Text.hex 16 x.bits.toNat))]
  | .text s => .text s
  | .blob bytes => .map [("blob", .text (String.join (bytes.map fun b => Text.hex 2 b.toNat)))]

def decoder : Decoder Value
  | _, .null => some .null
  | _, .text s => some (.text s)
  | _, .map [("real", .text "nan")] => some (.real .nan)
  | _, .map [("real", .text s)] => (Text.numberOfHex? s).map fun n => .real ⟨UInt64.ofNat n⟩
  | _, .map [("blob", .text s)] => (Text.bytesOfHex? s.toList).map .blob
  | format, d => (Decoder.int64 format d).map .integer

end Value

end TypedTables

import TypedTables.Decimal.Numeral
import TypedTables.Document
/-!
# TypedTables — reading JSON

A reader for JSON texts. A whole number that fits a machine word, signed or
not, is an integer; every other number is a real, a negative zero included.
A number too large for a real is refused, as are control characters inside
strings, escapes of half a character and text after the document.
-/

namespace TypedTables

namespace Json

/-- A text without the blanks at its start. -/
def skipBlanks : List Char → List Char
  | [] => []
  | c :: cs => if c == ' ' || c == '\n' || c == '\r' || c == '\t' then skipBlanks cs else c :: cs

def hexValue? (c : Char) : Option Nat :=
  if c.isDigit then some (c.toNat - '0'.toNat)
  else if 'a' ≤ c && c ≤ 'f' then some (c.toNat - 'a'.toNat + 10)
  else if 'A' ≤ c && c ≤ 'F' then some (c.toNat - 'A'.toNat + 10)
  else none

/-- The number of four hexadecimal digits, and the rest of the text. -/
def readHex4 : List Char → Option (Nat × List Char)
  | a :: b :: c :: d :: rest => do
    let n := 4096 * (← hexValue? a) + 256 * (← hexValue? b) + 16 * (← hexValue? c) + (← hexValue? d)
    return (n, rest)
  | _ => none

/-- The character of a numeric escape. Characters beyond sixteen bits are
written as two escapes, and neither half stands alone. -/
def readUnicodeEscape (cs : List Char) : Option (Char × List Char) := do
  let (high, rest) ← readHex4 cs
  if 0xDC00 ≤ high && high ≤ 0xDFFF then none
  else if 0xD800 ≤ high && high ≤ 0xDBFF then
    match rest with
    | '\\' :: 'u' :: rest =>
      let (low, rest) ← readHex4 rest
      if 0xDC00 ≤ low && low ≤ 0xDFFF then
        return (Char.ofNat (0x10000 + (high - 0xD800) * 0x400 + (low - 0xDC00)), rest)
      else none
    | _ => none
  else return (Char.ofNat high, rest)

/-- The character of an escape after its backslash. -/
def readEscape : List Char → Option (Char × List Char)
  | '"' :: rest => some ('"', rest)
  | '\\' :: rest => some ('\\', rest)
  | '/' :: rest => some ('/', rest)
  | 'b' :: rest => some ('\x08', rest)
  | 'f' :: rest => some ('\x0c', rest)
  | 'n' :: rest => some ('\n', rest)
  | 'r' :: rest => some ('\r', rest)
  | 't' :: rest => some ('\t', rest)
  | 'u' :: rest => readUnicodeEscape rest
  | _ => none

/-- The rest of a string after its opening quote. Every step takes at least
one character, so the length of the text bounds the steps. -/
def readString (fuel : Nat) (taken : List Char) (cs : List Char) : Option (String × List Char) :=
  match fuel, cs with
  | 0, _ | _, [] => none
  | _ + 1, '"' :: rest => some (String.ofList taken.reverse, rest)
  | fuel + 1, '\\' :: rest => do
    let (c, rest) ← readEscape rest
    readString fuel (c :: taken) rest
  | fuel + 1, c :: rest => if c.toNat < 32 then none else readString fuel (c :: taken) rest

/-- The exponent of a number, zero if it has none. -/
def readExponent : List Char → Option (Int × Bool × List Char)
  | 'e' :: rest | 'E' :: rest => do
    let (negative, rest) := match rest with
      | '+' :: rest => (false, rest)
      | '-' :: rest => (true, rest)
      | rest => (false, rest)
    let (digits, rest) := Numeral.takeDigits rest
    if digits.isEmpty then none
    else
      let n : Int := Numeral.ofDigits digits
      return (if negative then -n else n, true, rest)
  | rest => some (0, false, rest)

/-- The digits after the point of a number, none if it has no point. -/
def readFraction : List Char → Option (List Nat × Bool × List Char)
  | '.' :: rest =>
    let (digits, rest) := Numeral.takeDigits rest
    if digits.isEmpty then none else some (digits, true, rest)
  | rest => some ([], false, rest)

/-- The document of a number: an integer where it is whole and fits a word. -/
def numberDocument (n : Numeral) (isWhole : Bool) : Option Document :=
  let magnitude := Numeral.ofDigits n.whole
  if isWhole && !n.negative && magnitude < UInt64.size then some (.integer magnitude)
  else if isWhole && n.negative && 0 < magnitude && Int64.minValue.toInt ≤ -(magnitude : Int) then
    some (.integer (-(magnitude : Int)))
  else n.scaled.map .real

/-- A number after its sign. A zero that starts a number is its only whole
digit. -/
def readNumber (negative : Bool) (cs : List Char) : Option (Document × List Char) := do
  let (whole, rest) := Numeral.takeDigits cs
  if whole.isEmpty || (whole.length > 1 && whole.head? == some 0) then none
  else
    let (fraction, hasPoint, rest) ← readFraction rest
    let (exponent, hasExponent, rest) ← readExponent rest
    let document ← numberDocument ⟨negative, whole, fraction, exponent⟩ (!hasPoint && !hasExponent)
    return (document, rest)

/-- The rest of a text after a given word. -/
def afterWord : List Char → List Char → Option (List Char)
  | [], rest => some rest
  | w :: ws, c :: cs => if w == c then afterWord ws cs else none
  | _ :: _, [] => none

mutual

/-- The document at the start of a text. -/
def readValue (fuel : Nat) (cs : List Char) : Option (Document × List Char) :=
  match fuel with
  | 0 => none
  | fuel + 1 =>
    match skipBlanks cs with
    | 'n' :: rest => (afterWord ['u', 'l', 'l'] rest).map (.null, ·)
    | 't' :: rest => (afterWord ['r', 'u', 'e'] rest).map (.bool true, ·)
    | 'f' :: rest => (afterWord ['a', 'l', 's', 'e'] rest).map (.bool false, ·)
    | '"' :: rest => (readString (rest.length + 1) [] rest).map fun (s, rest) => (.text s, rest)
    | '[' :: rest =>
      match skipBlanks rest with
      | ']' :: rest => some (.list [], rest)
      | rest => (readItems fuel [] rest).map fun (items, rest) => (.list items, rest)
    | '\x7b' :: rest =>
      match skipBlanks rest with
      | '\x7d' :: rest => some (.map [], rest)
      | rest => (readMembers fuel [] rest).map fun (members, rest) => (.map members, rest)
    | '-' :: rest => readNumber true rest
    | rest => readNumber false rest

/-- The items of a list from the next one on. -/
def readItems (fuel : Nat) (taken : List Document) (cs : List Char) :
    Option (List Document × List Char) :=
  match fuel with
  | 0 => none
  | fuel + 1 => do
    let (item, rest) ← readValue fuel cs
    match skipBlanks rest with
    | ',' :: rest => readItems fuel (item :: taken) rest
    | ']' :: rest => return ((item :: taken).reverse, rest)
    | _ => none

/-- The members of a map from the next one on. -/
def readMembers (fuel : Nat) (taken : List (String × Document)) (cs : List Char) :
    Option (List (String × Document) × List Char) :=
  match fuel with
  | 0 => none
  | fuel + 1 => do
    match skipBlanks cs with
    | '"' :: rest =>
      let (key, rest) ← readString (rest.length + 1) [] rest
      match skipBlanks rest with
      | ':' :: rest =>
        let (value, rest) ← readValue fuel rest
        match skipBlanks rest with
        | ',' :: rest => readMembers fuel ((key, value) :: taken) rest
        | '\x7d' :: rest => return (((key, value) :: taken).reverse, rest)
        | _ => none
      | _ => none
    | _ => none

end

/-- Reads a whole text as one document. -/
def parse? (text : String) : Option Document := do
  let cs := text.toList
  let (document, rest) ← readValue (2 * cs.length + 2) cs
  match skipBlanks rest with
  | [] => return document
  | _ => none

end Json

end TypedTables

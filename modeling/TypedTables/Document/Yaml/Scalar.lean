import TypedTables.Decimal.Numeral
import TypedTables.Document
/-!
# TypedTables — unquoted YAML scalars

What an unquoted text stands for where its type is left open: nothing, a
truth value, an integer in one of four bases, a real, or the text itself. A
row of digits that starts with a zero is text.
-/

namespace TypedTables

namespace Yaml

def isNullWord (s : String) : Bool := s == "null" || s == "Null" || s == "NULL" || s == "~"

/-- Whether a text without quotes or a tag stands for nothing. -/
def isNothing (s : String) : Bool := s.isEmpty || isNullWord s

/-- The truth value that a word stands for. -/
def boolOfWord? (s : String) : Option Bool :=
  if s == "true" || s == "True" || s == "TRUE" then some true
  else if s == "false" || s == "False" || s == "FALSE" then some false
  else none

/-- The text without a sign at its start. -/
def dropSign : List Char → List Char
  | '+' :: cs | '-' :: cs => cs
  | cs => cs

/-- Several digits of which the first is a zero: text, and no number. -/
def isZeroPadded (cs : List Char) : Bool :=
  match dropSign cs with
  | '0' :: c :: cs => (c :: cs).all Char.isDigit
  | _ => false

/-- The value of a digit in a base of at most sixteen. -/
def digitIn? (base : Nat) (c : Char) : Option Nat :=
  let n :=
    if c.isDigit then c.toNat - '0'.toNat
    else if 'a' ≤ c && c ≤ 'f' then c.toNat - 'a'.toNat + 10
    else if 'A' ≤ c && c ≤ 'F' then c.toNat - 'A'.toNat + 10
    else 16
  if n < base then some n else none

/-- The number written by at least one digit of a base. -/
def naturalIn? (base : Nat) (cs : List Char) : Option Nat :=
  if cs.isEmpty then none
  else cs.foldl (fun n? c => do return (← n?) * base + (← digitIn? base c)) (some 0)

/-- The number of digits after an optional mark of their base. -/
def natural? : List Char → Option Nat
  | '0' :: 'x' :: cs => naturalIn? 16 cs
  | '0' :: 'o' :: cs => naturalIn? 8 cs
  | '0' :: 'b' :: cs => naturalIn? 2 cs
  | cs => if isZeroPadded cs then none else naturalIn? 10 cs

/-- The integer that a text stands for, if it has at most 128 bits. -/
def integer? (cs : List Char) : Option Int :=
  match cs with
  | '-' :: cs => do
    let n ← natural? cs
    if (n - 1).log2 < 127 then some (-(n : Int)) else none
  | '+' :: cs => do
    let n ← natural? cs
    if n.log2 < 128 then some n else none
  | cs => do
    let n ← natural? cs
    if n.log2 < 128 then some n else none

/-- An exponent at the end of a numeral, zero where there is none. -/
def exponent? : List Char → Option Int
  | [] => some 0
  | 'e' :: cs | 'E' :: cs =>
    let (negative, cs) := match cs with
      | '-' :: cs => (true, cs)
      | '+' :: cs => (false, cs)
      | cs => (false, cs)
    match Numeral.takeDigits cs with
    | (d :: ds, []) =>
      let n : Int := Numeral.ofDigits (d :: ds)
      some (if negative then -n else n)
    | _ => none
  | _ => none

/-- A numeral with an optional point and exponent, and at least one digit. -/
def numeral? (cs : List Char) : Option Numeral := do
  let (negative, cs) := match cs with
    | '-' :: cs => (true, cs)
    | '+' :: cs => (false, cs)
    | cs => (false, cs)
  let (whole, cs) := Numeral.takeDigits cs
  let (fraction, cs) := match cs with
    | '.' :: cs => Numeral.takeDigits cs
    | cs => ([], cs)
  if whole.isEmpty && fraction.isEmpty then none
  else return ⟨negative, whole, fraction, ← exponent? cs⟩

/-- The real that a text stands for. -/
def real? (s : String) : Option Double :=
  if s == ".inf" || s == ".Inf" || s == ".INF" || s == "+.inf" || s == "+.Inf" || s == "+.INF" then
    some (Double.infinity false)
  else if s == "-.inf" || s == "-.Inf" || s == "-.INF" then some (Double.infinity true)
  else if s == ".nan" || s == ".NaN" || s == ".NAN" then some Double.nan
  else
    match numeral? s.toList with
    | some n => if n.toDouble.isFinite then some n.toDouble else none
    | none => none

/-- What an unquoted text stands for. -/
def resolve (s : String) : Document :=
  if isNothing s then .null
  else
    match boolOfWord? s with
    | some b => .bool b
    | none =>
      match integer? s.toList with
      | some n => .integer n
      | none =>
        match if isZeroPadded s.toList then none else real? s with
        | some x => .real x
        | none => .text s

def boolTag : String := "tag:yaml.org,2002:bool"

def integerTag : String := "tag:yaml.org,2002:int"

def realTag : String := "tag:yaml.org,2002:float"

def nullTag : String := "tag:yaml.org,2002:null"

/-- The name in a tag that belongs to the text alone. -/
def localTag? (tag : String) : Option String :=
  match tag.toList with
  | ['!'] => some tag
  | '!' :: name => some (String.ofList name)
  | _ => none

/-- What a text with a tag stands for. Some tags ask for a type, which the
text then has to be of, and all others of common meaning for the text itself.
A tag of its own meaning stands for nothing known here. -/
def resolveTagged (tag s : String) : Document :=
  if (localTag? tag).isSome then .unreadable
  else if tag == boolTag then ((boolOfWord? s).map .bool).getD .unreadable
  else if tag == integerTag then ((integer? s.toList).map .integer).getD .unreadable
  else if tag == realTag then ((real? s).map .real).getD .unreadable
  else if tag == nullTag then .unreadable
  else .text s

end Yaml

end TypedTables

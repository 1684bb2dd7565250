import TypedTables.Decimal.Binary
/-!
# TypedTables — values

A `Value` is one cell of a table or one argument of a statement. It has one
of five storage classes, and everything a model stores is converted to and
from one of them.
-/

namespace TypedTables

/-- The five kinds of cell a table can hold. -/
inductive StorageClass
  | null
  | integer
  | real
  | text
  | blob
deriving Repr, DecidableEq

/-- The name of a storage class in messages. -/
def StorageClass.name : StorageClass → String
  | .null => "null"
  | .integer => "integer"
  | .real => "real"
  | .text => "text"
  | .blob => "blob"

/-- A cell or a bound argument. Integers have 64 bits. -/
inductive Value
  | null
  | integer (n : Int64)
  | real (x : Double)
  | text (s : String)
  | blob (bytes : List UInt8)
deriving Repr, DecidableEq, Inhabited

namespace Value

def storageClass : Value → StorageClass
  | .null => .null
  | .integer _ => .integer
  | .real _ => .real
  | .text _ => .text
  | .blob _ => .blob

def isNull : Value → Bool
  | .null => true
  | _ => false

/-- Whether a key that the database assigns still waits for its number:
it is empty or zero. -/
def isUnsetKey : Value → Bool
  | .null => true
  | .integer n => n == 0
  | _ => false

def asInteger? : Value → Option Int64
  | .integer n => some n
  | _ => none

def asText? : Value → Option String
  | .text s => some s
  | _ => none

/-- Truth values are stored as the integers one and zero. -/
def ofBool (b : Bool) : Value := .integer (if b then 1 else 0)

end Value

/-- The integer of 64 bits that is a whole number, if there is one. -/
def int64? (n : Int) : Option Int64 :=
  if Int64.minValue.toInt ≤ n ∧ n ≤ Int64.maxValue.toInt then some (Int64.ofInt n) else none

end TypedTables

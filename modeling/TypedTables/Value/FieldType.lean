import TypedTables.Value
/-!
# TypedTables — field types

The types a field of a model can be declared with, the values each of them
has, and the conversions between those values and cells. A conversion to a
cell always succeeds. A conversion from one fails on a cell of the wrong
storage class, and on an integer outside the range of the type; an optional
type reads an empty cell as no value.
-/

namespace TypedTables

/-- The integer types, by width and sign. -/
inductive IntegerType
  | i8
  | i16
  | i32
  | i64
  | u8
  | u16
  | u32
  | isize
deriving Repr, DecidableEq

namespace IntegerType

def name : IntegerType → String
  | .i8 => "i8"
  | .i16 => "i16"
  | .i32 => "i32"
  | .i64 => "i64"
  | .u8 => "u8"
  | .u16 => "u16"
  | .u32 => "u32"
  | .isize => "isize"

/-- The least number of the type. -/
def least : IntegerType → Int
  | .i8 => -0x80
  | .i16 => -0x8000
  | .i32 => -0x8000_0000
  | .i64 | .isize => -0x8000_0000_0000_0000
  | .u8 | .u16 | .u32 => 0

/-- The greatest number of the type. -/
def greatest : IntegerType → Int
  | .i8 => 0x7f
  | .i16 => 0x7fff
  | .i32 => 0x7fff_ffff
  | .i64 | .isize => 0x7fff_ffff_ffff_ffff
  | .u8 => 0xff
  | .u16 => 0xffff
  | .u32 => 0xffff_ffff

/-- Whether a number lies in the range of the type. -/
def Holds (t : IntegerType) (n : Int) : Prop := t.least ≤ n ∧ n ≤ t.greatest

instance (t : IntegerType) (n : Int) : Decidable (t.Holds n) :=
  inferInstanceAs (Decidable (_ ∧ _))

/-- Every integer type has zero. -/
theorem holds_zero (t : IntegerType) : t.Holds 0 := by cases t <;> decide

end IntegerType

/-- A resource locator, stored as its text. -/
structure Uri where
  text : String
deriving Repr, DecidableEq, Inhabited

/-- A type without an optional wrapper. `any` takes every cell as it is. -/
inductive ScalarType
  | integer (t : IntegerType)
  | bool
  | f32
  | f64
  | text
  | bytes
  | uri
  | any
deriving Repr, DecidableEq

namespace ScalarType

def name : ScalarType → String
  | .integer t => t.name
  | .bool => "bool"
  | .f32 => "f32"
  | .f64 => "f64"
  | .text => "String"
  | .bytes => "Vec<u8>"
  | .uri => "Uri"
  | .any => "Value"

def all : List ScalarType :=
  [.integer .i8, .integer .i16, .integer .i32, .integer .i64, .integer .u8, .integer .u16,
    .integer .u32, .integer .isize, .bool, .f32, .f64, .text, .bytes, .uri, .any]

/-- The type of a given name. -/
def ofName? (s : String) : Option ScalarType := all.find? fun t => t.name == s

/-- The type that a field is declared with. Byte vectors have a second name,
and a field that takes every cell cannot be declared. -/
def ofDeclared? (s : String) : Option ScalarType :=
  if s == "Bytes" then some .bytes
  else
    match ofName? s with
    | some .any => none
    | t => t

/-- The values of a type. -/
abbrev Carrier : ScalarType → Type
  | .integer t => { n : Int // t.Holds n }
  | .bool => Bool
  | .f32 => Single
  | .f64 => Double
  | .text => String
  | .bytes => List UInt8
  | .uri => Uri
  | .any => Value

/-- The value a field of the type has in a new instance. -/
def initial : (t : ScalarType) → t.Carrier
  | .integer t => ⟨0, t.holds_zero⟩
  | .bool => false
  | .f32 => ⟨0⟩
  | .f64 => ⟨0⟩
  | .text => ""
  | .bytes => []
  | .uri => ⟨""⟩
  | .any => .null

/-- The cell that holds a value of the type. -/
def toValue : (t : ScalarType) → t.Carrier → Value
  | .integer _, n => .integer (Int64.ofInt n.val)
  | .bool, b => .ofBool b
  | .f32, x => .real x.toDouble
  | .f64, x => .real x
  | .text, s => .text s
  | .bytes, bs => .blob bs
  | .uri, u => .text u.text
  | .any, v => v

end ScalarType

/-- A declared type: a scalar type, possibly optional. -/
inductive FieldType
  | required (t : ScalarType)
  | optional (t : ScalarType)
deriving Repr, DecidableEq

/-- Why a row could not be mapped. -/
inductive MappingError
  /-- The row has no column of this name. -/
  | missingColumn (column : String)
  /-- The cell has a storage class the type is never read from. -/
  | typeMismatch (column : String) (expected : ScalarType) (found : StorageClass)
  /-- The cell is an integer outside the range of the type. -/
  | outOfRange (column : String) (expected : IntegerType) (found : Int64)
deriving Repr, DecidableEq

def MappingError.message : MappingError → String
  | .missingColumn column => "missing column '" ++ column ++ "' in row"
  | .typeMismatch column expected found =>
    "column '" ++ column ++ "': cannot convert " ++ found.name ++ " to " ++ expected.name
  | .outOfRange column expected found =>
    "column '" ++ column ++ "': value " ++ toString found.toInt ++ " out of range for " ++
      expected.name

/-- The name of the kind of a fault. -/
def MappingError.kind : MappingError → String
  | .missingColumn .. => "MissingColumn"
  | .typeMismatch .. => "TypeMismatch"
  | .outOfRange .. => "OutOfRange"

/-- Reads the cell of a column as a value of a scalar type. Whole numbers are
accepted where a real is expected, and every integer but zero is true. -/
def ScalarType.ofValue (column : String) : (t : ScalarType) → Value → Except MappingError t.Carrier
  | .integer t, .integer n =>
    if h : t.Holds n.toInt then .ok ⟨n.toInt, h⟩ else .error (.outOfRange column t n)
  | .bool, .integer n => .ok (n != 0)
  | .f32, .real x => .ok x.toSingle
  | .f32, .integer n => .ok (Double.ofInt n.toInt).toSingle
  | .f64, .real x => .ok x
  | .f64, .integer n => .ok (Double.ofInt n.toInt)
  | .text, .text s => .ok s
  | .bytes, .blob bs => .ok bs
  | .uri, .text s => .ok ⟨s⟩
  | .any, v => .ok v
  | t, v => .error (.typeMismatch column t v.storageClass)

namespace FieldType

abbrev Carrier : FieldType → Type
  | .required t => t.Carrier
  | .optional t => Option t.Carrier

/-- The value a field of the type has in a new instance. -/
def initial : (t : FieldType) → t.Carrier
  | .required t => t.initial
  | .optional _ => none

/-- The cell that holds a value; no value is an empty cell. -/
def toValue : (t : FieldType) → t.Carrier → Value
  | .required t, x => t.toValue x
  | .optional _, none => .null
  | .optional t, some x => t.toValue x

/-- Reads the cell of a column as a value of the type. -/
def ofValue (column : String) : (t : FieldType) → Value → Except MappingError t.Carrier
  | .required t, v => t.ofValue column v
  | .optional _, .null => .ok none
  | .optional t, v => (t.ofValue column v).map some

/-- Whether a value is there: always, unless the type is optional. -/
def isPresent : (t : FieldType) → t.Carrier → Bool
  | .required _, _ => true
  | .optional _, x => x.isSome

/-- The spelling of an optional type around the spelling of its scalar type. -/
def optionalName (scalar : String) : String := "Option<" ++ scalar ++ ">"

/-- The type's own spelling. -/
def name : FieldType → String
  | .required t => t.name
  | .optional t => optionalName t.name

def all : List FieldType := ScalarType.all.flatMap fun t => [.required t, .optional t]

/-- The type with a given spelling. -/
def ofName? (s : String) : Option FieldType := all.find? fun t => t.name == s

/-- The text between the two ends of an optional type's spelling. -/
def insideOptional? (spelling : String) : Option String :=
  let cs := spelling.toList
  let start := "Option<".toList
  if start.isPrefixOf cs && start.length < cs.length && cs.getLast? == some '>' then
    some (String.ofList ((cs.drop start.length).dropLast))
  else none

/-- A spelling without blanks, as the spelling of its scalar type and whether
it is optional. -/
def splitSpelling (spelling : String) : String × Bool :=
  match insideOptional? spelling with
  | some inner => (inner, true)
  | none => (spelling, false)

/-- The type that a field is declared with, written without blanks. -/
def ofDeclared? (spelling : String) : Option FieldType :=
  match splitSpelling spelling with
  | (base, true) => (ScalarType.ofDeclared? base).map .optional
  | (base, false) => (ScalarType.ofDeclared? base).map .required

end FieldType

end TypedTables

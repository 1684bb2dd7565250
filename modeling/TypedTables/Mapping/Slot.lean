import TypedTables.Row
import TypedTables.Schema.Model
/-!
# TypedTables — slots and instances

A `Slot` is a stored field as rows see it: a column, a type, and the role
that decides when it is written. An `Instance` of a list of slots has a
value for each of them. An instance is read from a row slot by slot, and
the payload it writes leaves out a key the database still has to assign and
an optional value that is not there, so that the database fills them in.
-/

namespace TypedTables

/-- When a slot is written. -/
inductive SlotRole
  /-- The database numbers it: it is written once it has a number. -/
  | numbered
  /-- It is written where it has a value. -/
  | optional
  /-- It is always written. -/
  | always
deriving Repr, DecidableEq

/-- A stored field. -/
structure Slot where
  field : String
  column : String
  type : FieldType
  role : SlotRole
  isKey : Bool := false
deriving Repr, DecidableEq

/-- The role of a field. -/
def Field.role (f : Field) : SlotRole :=
  if f.isAutoIncrement then .numbered
  else if f.nullable && !f.isRequired then .optional
  else .always

/-- The slot of a field, where the type it is declared with is one. -/
def Field.slot? (f : Field) : Option Slot :=
  (FieldType.ofDeclared? f.declaredType).map fun t =>
    { field := f.name, column := f.columnName, type := t, role := f.role, isKey := f.isPrimaryKey }

/-- The slots of a model. -/
def Model.slots? (m : Model) : Option (List Slot) := m.fields.mapM Field.slot?

namespace Slot

/-- Reads a slot from a row. A key that is missing keeps its first value. -/
def read (s : Slot) (row : Row) : Except MappingError s.type.Carrier :=
  match s.role with
  | .numbered => do
    let key ← row.value s.column
    if key.isNull then return s.type.initial else s.type.ofValue s.column key
  | _ => row.get s.type s.column

/-- What a slot writes, if it writes anything. -/
def write (s : Slot) (x : s.type.Carrier) : Option Value :=
  let v := s.type.toValue x
  match s.role with
  | .numbered => if v.isUnsetKey then none else some v
  | .optional => if s.type.isPresent x then some v else none
  | .always => some v

end Slot

/-- A value for each slot. -/
abbrev Instance : List Slot → Type
  | [] => Unit
  | s :: slots => s.type.Carrier × Instance slots

namespace Instance

/-- The instance that a new struct is. -/
def initial : (slots : List Slot) → Instance slots
  | [] => ()
  | s :: slots => (s.type.initial, initial slots)

/-- Reads the slots from a row, first to last. -/
def ofRow (row : Row) : (slots : List Slot) → Except MappingError (Instance slots)
  | [] => .ok ()
  | s :: slots => do
    let x ← s.read row
    let xs ← ofRow row slots
    return (x, xs)

/-- What the slots write, in order. -/
def entries : (slots : List Slot) → Instance slots → List (String × Value)
  | [], _ => []
  | s :: slots, (x, xs) =>
    match s.write x with
    | some v => (s.column, v) :: entries slots xs
    | none => entries slots xs

/-- The payload of an instance. -/
def toValues (slots : List Slot) (xs : Instance slots) : Values := .ofList (entries slots xs)

/-- The cells of all slots. -/
def cells : (slots : List Slot) → Instance slots → List (String × Value)
  | [], _ => []
  | s :: slots, (x, xs) => (s.column, s.type.toValue x) :: cells slots xs

/-- The key of an instance, empty where there is no key. -/
def key : (slots : List Slot) → Instance slots → Value
  | [], _ => .null
  | s :: slots, (x, xs) => if s.isKey then s.type.toValue x else key slots xs

/-- The instance with another key. -/
def setKey (v : Value) : (slots : List Slot) → Instance slots → Except MappingError (Instance slots)
  | [], xs => .ok xs
  | s :: slots, (x, xs) =>
    if s.isKey then do return (← s.type.ofValue s.column v, xs)
    else do return (x, ← setKey v slots xs)

end Instance

end TypedTables

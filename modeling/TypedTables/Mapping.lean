import TypedTables.Mapping.Slot
import TypedTables.Schema.Table
/-!
# TypedTables — mappings

A `Mapping` ties a struct to its model: how an instance is read from a row,
what it writes, and what its key is. Every mapping here is built from the
slots of its model and the two ways between the struct and its slots; hooks
run after an instance is read.
-/

namespace TypedTables

/-- How a struct is stored. -/
structure Mapping (α : Type) where
  model : Model
  /-- The options its table is created with. -/
  options : DdlOptions
  ofRow : Row → Except MappingError α
  toValues : α → Values
  key : α → Value
  setKey : Value → α → Except MappingError α

namespace Mapping

variable {α : Type}

/-- The mapping of a struct that is its slots and something besides. -/
def ofSlots (model : Model) (options : DdlOptions) (slots : List Slot) (view : α → Instance slots)
    (replace : Instance slots → α → α) (initial : α) (hooks : α → α) : Mapping α :=
  { model, options
    ofRow := fun row => do return hooks (replace (← Instance.ofRow row slots) initial)
    toValues := fun x => Instance.toValues slots (view x)
    key := fun x => Instance.key slots (view x)
    setKey := fun v x => do return replace (← Instance.setKey v slots (view x)) x }

def table (m : Mapping α) : String := m.model.tableName

def columns (m : Mapping α) : List String := m.model.columns

/-- The column of the key, no name where there is no key. -/
def keyColumn (m : Mapping α) : String :=
  match m.model.primaryKey? with
  | some f => f.columnName
  | none => ""

def createTable (m : Mapping α) : String := m.model.createTable m.options

def createIndexes (m : Mapping α) : List String := m.model.createIndexes m.options

end Mapping

end TypedTables

import TypedTables.Schema.Default
import TypedTables.Schema.Provider
/-!
# TypedTables — models

A model is a struct mapped to one table: its fields with their columns,
keys and constraints, and the provider it is bound to. Models are plain
data; they are made once, from declarations, and everything else reads
them.
-/

namespace TypedTables

/-- A stored field of a model. -/
structure Field where
  name : String
  columnName : String
  semanticType : SemanticType
  /-- The spelling of the type the field is declared with. -/
  declaredType : String
  nullable : Bool := false
  isPrimaryKey : Bool := false
  isAutoIncrement : Bool := false
  isIndexed : Bool := false
  isUnique : Bool := false
  isNotNull : Bool := false
  defaultValue : Option DefaultValue := none
deriving Repr, DecidableEq

/-- Whether a payload always has the field: the database neither fills it in
nor numbers it. -/
def Field.isRequired (f : Field) : Bool :=
  (f.isNotNull && f.defaultValue.isNone) || (f.isPrimaryKey && !f.isAutoIncrement)

/-- A column that holds keys of another table. -/
structure ForeignKey where
  localColumn : String
  targetTable : String
  targetColumn : String
deriving Repr, DecidableEq

structure Model where
  name : String
  tableName : String
  /-- The module path of the struct. -/
  packagePath : String
  fields : List Field
  foreignKeys : List ForeignKey := []
  /-- Columns that are unique together. -/
  uniqueGroups : List (List String) := []
  provider : Provider
  /-- Methods that run, in order, after a row is mapped. -/
  initHooks : List String := []
deriving Repr, DecidableEq

namespace Model

/-- The first field that is a primary key. -/
def primaryKey? (m : Model) : Option Field := m.fields.find? (·.isPrimaryKey)

def field? (m : Model) (name : String) : Option Field := m.fields.find? (·.name == name)

def fieldByColumn? (m : Model) (column : String) : Option Field :=
  m.fields.find? (·.columnName == column)

/-- The columns of the table, in the order of the fields. -/
def columns (m : Model) : List String := m.fields.map (·.columnName)

end Model

end TypedTables

import TypedTables.Database.Catalog
import TypedTables.Database.Sequence
/-!
# TypedTables — defining tables

What it takes to create a table or an index: names that are not taken,
columns that are there, one primary key at most. A table can be dropped
unless a row of another table refers to one of its rows.
-/

namespace TypedTables

namespace TableDefinition

/-- The primary keys, by the names of their columns. -/
def primaryKeys (d : TableDefinition) : List (List String) :=
  (d.columns.filter (·.isKey)).map (fun c => [c.name]) ++ d.keys

/-- The column that holds the numbers of the rows: the only column of the
key, if its type is exactly an integer. -/
def numberColumn? (d : TableDefinition) : Option ColumnDefinition :=
  match d.primaryKeys with
  | [[name]] => d.columns.find? fun c => Keyword.same c.name name && Keyword.same c.typeName "integer"
  | _ => none

/-- Whether a column of this name is defined. -/
def hasColumn (d : TableDefinition) (name : String) : Bool :=
  d.columns.any fun c => Keyword.same c.name name

/-- The groups of columns that no two rows agree on, in the order in which
they are defined. -/
def uniqueNames (d : TableDefinition) : List (List String) :=
  let ofColumn (c : ColumnDefinition) : List (List String) :=
    (if c.isKey && d.numberColumn?.isNone then [[c.name]] else []) ++
      if c.isUnique then [[c.name]] else []
  d.columns.flatMap ofColumn ++ (if d.numberColumn?.isSome then [] else d.keys) ++ d.uniqueGroups

/-- The first column that is named but not defined. -/
def unknownColumn? (d : TableDefinition) : Option String :=
  (d.keys.flatten ++ d.foreignKeys.map (·.localColumn) ++ d.uniqueGroups.flatten).find? fun name =>
    !d.hasColumn name

/-- Whether two columns have the same name. -/
def hasRepeatedColumn : List ColumnDefinition → Bool
  | [] => false
  | c :: rest => rest.any (fun other => Keyword.same other.name c.name) || hasRepeatedColumn rest

/-- How many columns a table can have, and a group of columns. -/
def columnLimit : Nat := 2000

/-- Whether there are more columns than can be. -/
def isTooWide (d : TableDefinition) : Bool :=
  columnLimit < d.columns.length || (d.keys ++ d.uniqueGroups).any fun group => columnLimit < group.length

/-- The new table of a definition with some text. -/
def build (d : TableDefinition) (name text : String) (serial : Nat) : Except EngineFault Table := do
  if d.isTooWide then throw .invalidDefinition
  if hasRepeatedColumn d.columns then throw .invalidDefinition
  if 1 < d.primaryKeys.length then throw .invalidDefinition
  if let some column := d.unknownColumn? then throw (.noSuchColumn column)
  let isAutoIncrement := d.columns.any (·.isAutoIncrement)
  if isAutoIncrement && d.numberColumn?.isNone then throw .invalidDefinition
  let position (column : String) : Nat := d.columns.findIdx fun c => Keyword.same c.name column
  let numberColumn := d.numberColumn?.map fun c => position c.name
  return {
    name
    columns := d.columns.mapIdx fun i c =>
      { name := c.name, affinity := .ofTypeName c.typeName, isRequired := c.isRequired
        defaultValue := if numberColumn = some i then .null else c.defaultValue.getD .null
        width := ColumnAffinity.widthOf c.typeName }
    numberColumn
    isAutoIncrement
    uniqueGroups := (d.uniqueNames.map fun group => group.map position).eraseDups
    foreignKeys := d.foreignKeys
    serial
    definition := text }

end TableDefinition

namespace Database

/-- Whether a name is kept for the engine's own tables. -/
def isInternal (name : String) : Bool := "sqlite_".toList.isPrefixOf (Keyword.fold name).toList

def createTable (d : Database) (name : String) (ifNotExists : Bool) (definition : TableDefinition)
    (text : String) : Except EngineFault Database := do
  if isInternal name then throw (.nameTaken name)
  if (d.table? name).isSome then
    if ifNotExists then return d else throw (.nameTaken name)
  if (d.index? name).isSome then throw (.nameTaken name)
  let t ← definition.build name text d.nextSerial
  let d := { d with tables := d.tables ++ [t] }
  return if t.isAutoIncrement then d.withSequence else d

def createIndex (d : Database) (name : String) (ifNotExists : Bool) (table : String)
    (columns : List String) (text : String) : Except EngineFault Database := do
  let t ← d.table table
  if isInternal t.name then throw (.nameTaken t.name)
  if isInternal name then throw (.nameTaken name)
  if (d.table? name).isSome then throw (.nameTaken name)
  if (d.index? name).isSome then
    if ifNotExists then return d else throw (.nameTaken name)
  if let some column := columns.find? fun c => (t.columnIndex? c).isNone then
    throw (.noSuchColumn column)
  return { d with indexes := d.indexes ++ [⟨name, t.name, columns, d.nextSerial, text⟩] }

/-- Whether a row of one table refers to a row of another. -/
def refersTo (child parent : Table) : Bool :=
  child.foreignKeys.any fun fk =>
    Keyword.same fk.targetTable parent.name &&
      match child.columnIndex? fk.localColumn, parent.columnIndex? fk.targetColumn with
      | some i, some j =>
        parent.isKey j && child.rows.any fun r =>
          let v := r.cells.getD i .null
          !v.isNull && parent.rows.any fun p => Cell.same (p.cells.getD j .null) v
      | _, _ => false

def dropTable (d : Database) (name : String) (ifExists : Bool) : Except EngineFault Database := do
  if isSchemaName name then throw (.nameTaken name)
  match d.table? name with
  | none => if ifExists then return d else throw (.noSuchTable name)
  | some t =>
    if isInternal name then throw (.nameTaken name)
    let others := d.tables.filter fun u => !Keyword.same u.name name
    if others.any fun u => refersTo u t then throw .brokenReference
    let d : Database := ⟨others, d.indexes.filter fun i => !Keyword.same i.table name⟩
    return if t.isAutoIncrement then d.forgetNumbers t.name else d

end Database

end TypedTables

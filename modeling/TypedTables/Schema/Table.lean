import TypedTables.Schema.Model
/-!
# TypedTables — table definitions

The SQL that creates the table of a model. Columns come first, in the order
of the fields, then foreign keys, then groups of columns that are unique
together. An index is a statement of its own.
-/

namespace TypedTables

structure DdlOptions where
  /-- Whether a table or index that is there already is left alone. -/
  ifNotExists : Bool := false
  /-- Whether indexes are created. -/
  emitIndexes : Bool := false
deriving Repr, DecidableEq

/-- What stands before the name of a new table or index. -/
def DdlOptions.guard (o : DdlOptions) : String := if o.ifNotExists then "IF NOT EXISTS " else ""

/-- The definition of a field's column. A key is unique by itself. -/
def Field.columnSql (f : Field) : String :=
  f.columnName ++ " " ++ f.semanticType.affinity.sql ++
    (if f.isPrimaryKey then
      if f.isAutoIncrement then " PRIMARY KEY AUTOINCREMENT" else " PRIMARY KEY"
    else "") ++
    (if f.isNotNull then " NOT NULL" else "") ++
    (if f.isUnique && !f.isPrimaryKey then " UNIQUE" else "") ++
    match f.defaultValue with
    | some d => " DEFAULT " ++ d.sql
    | none => ""

def ForeignKey.sql (fk : ForeignKey) : String :=
  "FOREIGN KEY (" ++ fk.localColumn ++ ") REFERENCES " ++ fk.targetTable ++ "(" ++
    fk.targetColumn ++ ")"

namespace Model

/-- The constraint of columns that are unique together. -/
def uniqueSql (columns : List String) : String :=
  "UNIQUE (" ++ String.intercalate ", " columns ++ ")"

/-- What stands between the parentheses of the table definition. -/
def tableClauses (m : Model) : List String :=
  m.fields.map Field.columnSql ++ m.foreignKeys.map ForeignKey.sql ++ m.uniqueGroups.map uniqueSql

/-- The statement that creates the model's table. -/
def createTable (m : Model) (o : DdlOptions) : String :=
  "CREATE TABLE " ++ o.guard ++ m.tableName ++ " (" ++ String.intercalate ", " m.tableClauses ++ ")"

/-- The name of the index on a column. -/
def indexName (table column : String) : String := "idx_" ++ table ++ "_" ++ column

/-- The fields that get an index. A key has one already. -/
def indexedFields (m : Model) : List Field := m.fields.filter fun f => f.isIndexed && !f.isPrimaryKey

/-- The statement that creates the index on a field's column. -/
def createIndex (m : Model) (o : DdlOptions) (f : Field) : String :=
  "CREATE INDEX " ++ o.guard ++ indexName m.tableName f.columnName ++ " ON " ++ m.tableName ++ "(" ++
    f.columnName ++ ")"

/-- The statements that create the model's indexes. -/
def createIndexes (m : Model) (o : DdlOptions) : List String :=
  if o.emitIndexes then m.indexedFields.map (m.createIndex o) else []

/-- The statement that drops a table. -/
def dropTable (table : String) : String := "DROP TABLE IF EXISTS " ++ table

end Model

end TypedTables

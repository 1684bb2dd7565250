import TypedTables.Database.Term
import TypedTables.Schema.Model
import TypedTables.Sql.Statement
/-!
# TypedTables — instructions

What a statement of SQL tells the engine to do.
-/

namespace TypedTables

/-- A term over the names of columns. -/
abbrev NamedTerm := Term ColumnName

/-- The definition of a column. -/
structure ColumnDefinition where
  name : String
  /-- The declared type, empty if there is none. -/
  typeName : String := ""
  isKey : Bool := false
  isAutoIncrement : Bool := false
  isRequired : Bool := false
  isUnique : Bool := false
  defaultValue : Option Value := none
deriving Repr, DecidableEq

/-- The definition of a table. -/
structure TableDefinition where
  columns : List ColumnDefinition
  /-- The columns of primary keys that are defined after all columns. -/
  keys : List (List String) := []
  foreignKeys : List ForeignKey := []
  uniqueGroups : List (List String) := []
  /-- Names that are given to constraints. A name may have none behind it. -/
  constraintNames : List String := []
deriving Repr, DecidableEq

/-- Whether something was defined that no column comes after. -/
def TableDefinition.isLate (d : TableDefinition) : Bool :=
  !(d.keys.isEmpty && d.foreignKeys.isEmpty && d.uniqueGroups.isEmpty && d.constraintNames.isEmpty)

/-- A column of a result. -/
inductive ResultColumn
  /-- All columns, of all tables or of one. -/
  | all (table : Option String)
  /-- A term, the name given to it, and its own text. -/
  | term (term : NamedTerm) (label : Option String) (spelling : String)
deriving Repr, DecidableEq

/-- A table that a query joins to those before it. -/
structure JoinedTable where
  kind : JoinKind
  table : String
  on : Option NamedTerm
deriving Repr, DecidableEq

/-- A term to order by. -/
structure OrderKey where
  term : NamedTerm
  collation : Collation
  descending : Bool
deriving Repr, DecidableEq

/-- A query. -/
structure SelectQuery where
  columns : List ResultColumn
  /-- The first table, if rows are read at all. -/
  source : Option String := none
  joins : List JoinedTable := []
  condition : Option NamedTerm := none
  groupBy : List NamedTerm := []
  having : Option NamedTerm := none
  orderBy : List OrderKey := []
  limit : Option Limit := none
deriving Repr, DecidableEq

inductive Instruction
  /-- Creates a table. The text is that of the definition, from the name on. -/
  | createTable (name : String) (ifNotExists : Bool) (definition : TableDefinition) (text : String)
  | createIndex (name : String) (ifNotExists : Bool) (table : String) (columns : List String)
      (text : String)
  | dropTable (name : String) (ifExists : Bool)
  /-- Inserts a row. Columns that are not listed get their defaults. -/
  | insert (table : String) (policy : ConflictPolicy) (entries : List (String × NamedTerm))
  | update (table : String) (assignments : List (String × NamedTerm)) (condition : Option NamedTerm)
  | delete (table : String) (condition : Option NamedTerm)
  | select (query : SelectQuery)
deriving Repr, DecidableEq

end TypedTables

import TypedTables.Sql.Join
import TypedTables.Sql.Ordering
import TypedTables.Row
/-!
# TypedTables — statements

The SQL statements that read and write one table. A statement is a fragment
like any other, so its arguments stand in the order of its placeholders:
assigned values, join conditions in join order, the `WHERE` condition, the
`HAVING` condition.
-/

namespace TypedTables

/-- What an insert does with a row that breaks a constraint. -/
inductive ConflictPolicy
  | abort
  | ignore
  | replace
  | fail
  | rollback
deriving Repr, DecidableEq

namespace ConflictPolicy

/-- The policy in SQL. -/
def sql : ConflictPolicy → String
  | .abort => "ABORT"
  | .ignore => "IGNORE"
  | .replace => "REPLACE"
  | .fail => "FAIL"
  | .rollback => "ROLLBACK"

def all : List ConflictPolicy := [.abort, .ignore, .replace, .fail, .rollback]

/-- The policy of a given name. -/
def ofName? (s : String) : Option ConflictPolicy := all.find? fun p => p.sql == s

end ConflictPolicy

/-- Parts of a query that only a local database understands. -/
inductive Feature
  | join
  | groupBy
  | having
  | limit
  | rawQuery
deriving Repr, DecidableEq

/-- The feature's name in messages. -/
def Feature.name : Feature → String
  | .join => "join clause"
  | .groupBy => "group by clause"
  | .having => "having clause"
  | .limit => "limit clause"
  | .rawQuery => "raw query"

/-- A query of one table with its conditions compiled. No columns means all
of them. -/
structure SelectRequest where
  table : String
  columns : List String := []
  selection : Sql := .empty
  joins : List CompiledJoin := []
  groupBy : List String := []
  having : Sql := .empty
  orderBy : List OrderTerm := []
  limit : Option Limit := none
deriving Repr, DecidableEq

namespace SelectRequest

/-- The first part of the query that only a local database understands. -/
def localFeature? (r : SelectRequest) : Option Feature :=
  if !r.joins.isEmpty then some .join
  else if !r.groupBy.isEmpty then some .groupBy
  else if !r.having.isEmpty then some .having
  else if r.limit.isSome then some .limit
  else none

/-- Whether a column is an expression or already names its table. -/
def isQualified (column : String) : Bool :=
  column.toList.any fun c => c == '.' || c == '(' || c == ' '

/-- A column of a query with joins. A bare name is qualified with the table,
so that a joined table cannot make it ambiguous, and keeps its own name in
the result. -/
def qualifiedColumn (table column : String) : String :=
  if isQualified column then column else table ++ "." ++ column ++ " AS " ++ column

/-- What is selected. -/
def projection (r : SelectRequest) : String :=
  if r.columns.isEmpty then "*"
  else if r.joins.isEmpty then String.intercalate ", " r.columns
  else String.intercalate ", " (r.columns.map (qualifiedColumn r.table))

end SelectRequest

namespace Statement

/-- The condition a statement is limited to, where there is one. -/
def whereClause (selection : Sql) : Sql :=
  if selection.isEmpty then .empty else .lit " WHERE " ++ selection

def groupByClause (columns : List String) : Sql :=
  if columns.isEmpty then .empty else .lit (" GROUP BY " ++ String.intercalate ", " columns)

def havingClause (condition : Sql) : Sql :=
  if condition.isEmpty then .empty else .lit " HAVING " ++ condition

def orderByClause (terms : List OrderTerm) : Sql :=
  match OrderTerm.listSql? terms with
  | some sql => .lit (" ORDER BY " ++ sql)
  | none => .empty

def limitClause (limit : Option Limit) : Sql :=
  match limit with
  | some l => .lit (" " ++ l.sql)
  | none => .empty

/-- The statement of a query. -/
def select (r : SelectRequest) : Sql :=
  .lit ("SELECT " ++ r.projection ++ " FROM " ++ r.table) ++ Sql.concat (r.joins.map CompiledJoin.sql) ++
    whereClause r.selection ++ groupByClause r.groupBy ++ havingClause r.having ++
    orderByClause r.orderBy ++ limitClause r.limit

/-- The statement that inserts one row. A row without columns takes its
defaults. -/
def insert (table : String) (values : Values) (policy : ConflictPolicy) : Sql :=
  let start := "INSERT OR " ++ policy.sql ++ " INTO " ++ table
  if values.isEmpty then .lit (start ++ " DEFAULT VALUES")
  else
    .lit (start ++ " (" ++ String.intercalate ", " values.columns ++ ") VALUES ") ++
      (Sql.join ", " (values.values.map Sql.bind)).parens

/-- One assignment of an update. -/
def assignment (entry : String × Value) : Sql := .lit (entry.1 ++ " = ") ++ .bind entry.2

/-- The statement that updates the rows of a selection. -/
def update (table : String) (values : Values) (selection : Sql) : Sql :=
  .lit ("UPDATE " ++ table ++ " SET ") ++ Sql.join ", " (values.entries.map assignment) ++
    whereClause selection

/-- The statement that deletes the rows of a selection. -/
def delete (table : String) (selection : Sql) : Sql :=
  .lit ("DELETE FROM " ++ table) ++ whereClause selection

/-- The statement that counts the rows of a selection. -/
def count (table : String) (selection : Sql) : Sql :=
  .lit ("SELECT COUNT(*) FROM " ++ table) ++ whereClause selection

end Statement

end TypedTables

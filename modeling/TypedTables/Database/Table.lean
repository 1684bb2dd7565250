import TypedTables.Database.Instruction
/-!
# TypedTables — tables of a database

A database is a list of tables and of indexes. Every row of a table has a
number, and rows are kept in the order of their numbers. Where the key of a
table is a single integer column, that column holds the number. Of a table
that numbers its rows automatically, a table of the engine's own remembers
the highest number that was ever used, so that none is used twice.
-/

namespace TypedTables

structure Column where
  name : String
  affinity : ColumnAffinity
  isRequired : Bool := false
  defaultValue : Value := .null
  /-- How much room its values take, an integer taking one. -/
  width : Nat := 1
deriving Repr, DecidableEq

structure TableRow where
  number : Int64
  cells : List Value
deriving Repr, DecidableEq

structure Table where
  name : String
  columns : List Column
  /-- The column that holds the numbers of the rows. -/
  numberColumn : Option Nat := none
  isAutoIncrement : Bool := false
  /-- Columns, by position, that no two rows agree on. -/
  uniqueGroups : List (List Nat) := []
  foreignKeys : List ForeignKey := []
  rows : List TableRow := []
  /-- The number of the table among all tables and indexes. The indexes of its
  unique groups have the numbers after it. -/
  serial : Nat := 0
  /-- The text of its definition, from the name on. -/
  definition : String := ""
deriving Repr, DecidableEq

/-- An index over columns of a table. It does not change which rows a query
finds, but it can change their order. -/
structure Index where
  name : String
  table : String
  columns : List String
  serial : Nat := 0
  definition : String := ""
deriving Repr, DecidableEq

structure Database where
  tables : List Table := []
  indexes : List Index := []
deriving Repr, DecidableEq, Inhabited

namespace Table

/-- The position of a column. -/
def columnIndex? (t : Table) (name : String) : Option Nat :=
  t.columns.findIdx? fun c => Keyword.same c.name name

def columnIndex (t : Table) (name : String) : Except EngineFault Nat :=
  match t.columnIndex? name with
  | some i => .ok i
  | none => .error (.noSuchColumn name)

/-- Whether a name stands for the number of a row, where no column has it. -/
def isNumberName (name : String) : Bool :=
  ["rowid", "oid", "_rowid_"].any (Keyword.same name)

/-- The position of what a name stands for in a row: a column, or the number
of the row, which comes after the columns if none of them holds it. -/
def cellIndex (t : Table) (name : String) : Except EngineFault Nat :=
  match t.columnIndex? name with
  | some i => .ok i
  | none =>
    if isNumberName name then .ok (t.numberColumn.getD t.columns.length)
    else .error (.noSuchColumn name)

/-- The cells of a row, with its number behind them unless a column holds it. -/
def cellsOf (t : Table) (r : TableRow) : List Value :=
  if t.numberColumn.isSome then r.cells else r.cells ++ [.integer r.number]

/-- Whether the column alone tells rows apart. -/
def isKey (t : Table) (column : Nat) : Bool :=
  t.numberColumn == some column || t.uniqueGroups.contains [column]

end Table

namespace Database

def empty : Database := {}

def table? (d : Database) (name : String) : Option Table :=
  d.tables.find? fun t => Keyword.same t.name name

def table (d : Database) (name : String) : Except EngineFault Table :=
  match d.table? name with
  | some t => .ok t
  | none => .error (.noSuchTable name)

def index? (d : Database) (name : String) : Option Index :=
  d.indexes.find? fun i => Keyword.same i.name name

/-- The database with a new version of one of its tables. -/
def replaceTable (d : Database) (t : Table) : Database :=
  { d with tables := d.tables.map fun u => if Keyword.same u.name t.name then t else u }

/-- The number of the next table or index. -/
def nextSerial (d : Database) : Nat :=
  1 + (d.tables.map fun t => t.serial + t.uniqueGroups.length).foldl max
    ((d.indexes.map (·.serial)).foldl max 0)

/-- Whether there is a table of exactly this name, letter case included. -/
def hasTable (d : Database) (name : String) : Bool := d.tables.any fun t => t.name == name

end Database

end TypedTables

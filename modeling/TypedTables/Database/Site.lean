import TypedTables.Database.Scope
import TypedTables.Database.Estimate
import TypedTables.Sql.Join
/-!
# TypedTables — the tables of a query

What a search for rows has to know of the tables of a query: where their
cells stand in a joined row, which indexes they have, and how large their
rows are. A column is then known by the position of its table and its own
position in it.
-/

namespace TypedTables

/-- A column of one of the tables of a query, or the number of its rows. -/
structure Site where
  /-- The position of the table. -/
  table : Nat
  /-- The position of the column, unless it is the number of the row. -/
  column : Option Nat
deriving Repr, DecidableEq

/-- The columns that an index is sorted by, before the numbers of the rows. -/
structure KeyIndex where
  columns : List Nat
  isUnique : Bool
deriving Repr, DecidableEq

/-- A table of a query. -/
structure PlacedTable where
  table : Table
  /-- Its indexes, the latest first. -/
  indexes : List KeyIndex
  /-- The place of its first cell in a joined row. -/
  start : Nat
  /-- How it is joined to the tables before it. -/
  kind : JoinKind
  /-- Whether the query says that its columns can be empty for want of a row. -/
  canMiss : Bool := false

namespace PlacedTable

/-- A table of a database, with its first cell at some place. -/
def ofDatabase (d : Database) (t : Table) (start : Nat) (kind : JoinKind) : PlacedTable :=
  let indexes := (d.indexes.filter fun i => Keyword.same i.table t.name).map fun i =>
    ⟨i.columns.filterMap t.columnIndex?, false⟩
  ⟨t, indexes.reverse ++ t.uniqueGroups.reverse.map (⟨·, true⟩), start, kind, kind = .leftOuter⟩

/-- The position of the cell that holds the number of a row. -/
def numberCell (t : PlacedTable) : Nat := t.table.numberColumn.getD t.table.columns.length

/-- How many cells a row has. -/
def width (t : PlacedTable) : Nat := max t.table.columns.length (t.numberCell + 1)

/-- The place of a column in a joined row. -/
def cellOf (t : PlacedTable) (column : Option Nat) : Nat := t.start + column.getD t.numberCell

/-- The column at a position, or nothing for the number of the row. -/
def columnAt (t : PlacedTable) (i : Nat) : Option Nat := if i = t.numberCell then none else some i

/-- Whether a column can be empty. -/
def canBeEmpty (t : PlacedTable) (column : Option Nat) : Bool :=
  match column.bind (t.table.columns[·]?) with
  | some c => !c.isRequired
  | none => false

/-- Whether rows before it stay even where none of its own fits. -/
def isOptional (t : PlacedTable) : Bool := t.kind = .leftOuter

/-- Whether it is visited after all tables before it. -/
def isFixed (t : PlacedTable) : Bool := t.kind = .leftOuter || t.kind = .cross

/-- The width of some of its columns. -/
def widthOf (t : PlacedTable) (columns : List Nat) : Nat :=
  (columns.map fun i => ((t.table.columns[i]?).map (·.width)).getD 1).foldl (· + ·) 0

/-- The size of a row. -/
def rowSize (t : PlacedTable) : Estimate :=
  .ofNat (4 * (t.widthOf (List.range t.table.columns.length) + if t.table.numberColumn.isSome then 0 else 1))

/-- The size of an entry of an index. -/
def entrySize (t : PlacedTable) (i : KeyIndex) : Estimate := .ofNat (4 * (t.widthOf i.columns + 1))

end PlacedTable

namespace Site

/-- The column at a place of a joined row. -/
def ofPlace (tables : List PlacedTable) (i : Nat) : Site :=
  let k := tables.findIdx fun t => i < t.start + t.width
  ⟨k, (tables[k]?).bind fun t => t.columnAt (i - t.start)⟩

/-- Whether the column can be empty, also for want of a row. -/
def canBeEmpty (tables : List PlacedTable) (s : Site) : Bool :=
  (tables[s.table]?).any fun t => t.canMiss || t.canBeEmpty s.column

/-- The affinity of the column. -/
def affinity (tables : List PlacedTable) (s : Site) : ColumnAffinity :=
  match (tables[s.table]?).bind fun t => s.column.bind (t.table.columns[·]?) with
  | some c => c.affinity
  | none => .integer

end Site

end TypedTables

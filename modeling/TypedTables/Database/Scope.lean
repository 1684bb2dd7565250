import TypedTables.Database.Table
/-!
# TypedTables — names in a statement

Which columns a statement can name. The columns of all tables of a query
stand one after the other, as their cells do in a row; a name without a
table has to belong to one of them only. A column that a natural join has
merged with an earlier one answers to its full name alone.
-/

namespace TypedTables

/-- A column that can be named. -/
structure ScopeColumn where
  table : String
  name : String
  affinity : ColumnAffinity
  isMerged : Bool := false
  /-- Whether it holds the numbers of the rows. -/
  isNumber : Bool := false
  /-- Whether it is no column of its own. -/
  isHidden : Bool := false
deriving Repr, DecidableEq

/-- The columns that can be named, in the order of their cells. -/
abbrev Scope := List ScopeColumn

/-- A term whose columns are places in a row. -/
abbrev PlacedTerm := Term ColumnPlace

namespace Scope

/-- The columns of a table, and the numbers of its rows. -/
def ofTable (t : Table) : Scope :=
  (t.columns.mapIdx fun i c =>
    { table := t.name, name := c.name, affinity := c.affinity, isNumber := t.numberColumn == some i }) ++
  if t.numberColumn.isSome then []
  else [{ table := t.name, name := "rowid", affinity := .integer, isNumber := true, isHidden := true }]

/-- Whether a column belongs to the table of a name, if that is given. -/
def isOf (c : ScopeColumn) (reference : ColumnName) : Bool := reference.table.all (Keyword.same c.table)

/-- Whether a column answers to a name. -/
def answers (c : ScopeColumn) (reference : ColumnName) : Bool :=
  Keyword.same c.name reference.name && !c.isHidden && isOf c reference &&
    !(reference.table.isNone && c.isMerged)

/-- Whether a column answers to a name as the number of the rows. -/
def answersNumber (c : ScopeColumn) (reference : ColumnName) : Bool :=
  c.isNumber && Table.isNumberName reference.name && isOf c reference

/-- The places of the columns of a kind. -/
def places (s : Scope) (isMeant : ScopeColumn → Bool) : List ColumnPlace :=
  (s.zipIdx.filter fun (c, _) => isMeant c).map fun (c, i) => ⟨i, c.affinity⟩

/-- The place of the column of a name. -/
def find (s : Scope) (reference : ColumnName) : Except EngineFault ColumnPlace :=
  match s.places (answers · reference), s.places (answersNumber · reference) with
  | [place], _ | [], [place] => .ok place
  | [], [] => .error (.noSuchColumn reference.name)
  | _, _ => .error (.ambiguousColumn reference.name)

/-- A term with its names resolved. -/
def resolve (s : Scope) (t : NamedTerm) : Except EngineFault PlacedTerm :=
  t.resolve fun name => return .column (← s.find name)

/-- A condition on single rows. Without one, every row passes. -/
def resolveCondition (s : Scope) (condition : Option NamedTerm) : Except EngineFault PlacedTerm :=
  match condition with
  | none => .ok .always
  | some c => if c.isAggregate then .error .unsupported else s.resolve c

end Scope

end TypedTables

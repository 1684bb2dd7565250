import TypedTables.Database.Table
/-!
# TypedTables — constraints

What every row of a table has to keep to: required columns are not empty,
rows differ in their numbers and in every unique group, and a foreign key
finds a row of its target. An empty cell conflicts with nothing and refers
to nothing.
-/

namespace TypedTables

namespace Table

/-- The cells of a row in a group of columns. -/
def groupCells (group : List Nat) (r : TableRow) : List Value := group.map fun i => r.cells.getD i .null

/-- Whether two rows agree on a group of columns, all of them filled. -/
def agree (group : List Nat) (a b : TableRow) : Bool :=
  (groupCells group a).zip (groupCells group b) |>.all fun (x, y) =>
    !x.isNull && Cell.same x y

/-- Whether two rows cannot both be in the table. -/
def conflict (t : Table) (a b : TableRow) : Bool :=
  a.number == b.number || t.uniqueGroups.any fun group => agree group a b

/-- Whether no two rows of a list conflict. -/
def isConsistent (t : Table) : List TableRow → Bool
  | [] => true
  | r :: rest => !rest.any (t.conflict r) && isConsistent t rest

/-- The first required column that a row leaves empty. The number of the row
is never empty. -/
def missingColumn? (t : Table) (r : TableRow) : Option Nat :=
  (List.range t.columns.length).find? fun i =>
    t.numberColumn != some i && ((t.columns[i]?).map (·.isRequired)).getD false &&
      (r.cells.getD i .null).isNull

/-- Puts a row in its place. -/
def insertRow (r : TableRow) : List TableRow → List TableRow
  | [] => [r]
  | first :: rest =>
    if r.number < first.number then r :: first :: rest else first :: insertRow r rest

/-- Rows in the order of their numbers. -/
def sortRows (rows : List TableRow) : List TableRow := rows.foldl (fun sorted r => insertRow r sorted) []

end Table

namespace Database

/-- The target of a foreign key: a table that is there, and a column of it
that tells rows apart. -/
def target (d : Database) (fk : ForeignKey) : Except EngineFault (Table × Nat) := do
  let t ← d.table fk.targetTable
  match t.columnIndex? fk.targetColumn with
  | some i => if t.isKey i then return (t, i) else throw .wrongReference
  | none => throw .wrongReference

/-- Whether a value is found in a column of a table. -/
def isFound (t : Table) (column : Nat) (v : Value) : Bool :=
  let sought := ((t.columns[column]?).map fun c => Cell.stored c.affinity v).getD v
  t.rows.any fun r => Cell.same (r.cells.getD column .null) sought

/-- Checks a foreign key for every row of its table. -/
def checkForeignKey (d : Database) (t : Table) (fk : ForeignKey) : Except EngineFault Unit := do
  let (target, column) ← d.target fk
  let i ← t.columnIndex fk.localColumn
  if t.rows.all fun r =>
    let v := r.cells.getD i .null
    v.isNull || isFound target column v
  then return () else throw .brokenReference

/-- Checks the foreign keys of a table that a change can break. -/
def checkOwn (d : Database) (t : Table) (isTouched : ForeignKey → Bool) : Except EngineFault Unit :=
  (t.foreignKeys.filter isTouched).forM (d.checkForeignKey t)

/-- Checks the foreign keys that refer to a table and that a change can
break. -/
def checkReferring (d : Database) (t : Table) (isTouched : ForeignKey → Bool) :
    Except EngineFault Unit :=
  d.tables.forM fun u =>
    d.checkOwn u fun fk => Keyword.same fk.targetTable t.name && isTouched fk

end Database

end TypedTables

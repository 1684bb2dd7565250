import TypedTables.Database.Constraint
import TypedTables.Database.Plan
import TypedTables.Database.Sequence
/-!
# TypedTables — changing rows

How rows are inserted, updated and deleted. A row is checked for empty
required columns first, then for rows it conflicts with. What an insertion
does about either is its policy: it gives up, it skips the row, or it
removes the rows that are in the way. A foreign key that is broken in the
end always fails, and a statement that fails changes nothing.
-/

namespace TypedTables

namespace Table

/-- The highest number of a row. -/
def lastNumber? (t : Table) : Option Int := t.rows.getLast?.map fun r => r.number.toInt

/-- The number of the next row that is given none. A table that numbers its
rows automatically goes on after the highest number it has used. -/
def nextNumber (t : Table) (highest : Int) : Except EngineFault Int64 :=
  let after := (t.lastNumber?.map (· + 1)).getD 1
  let next := if t.isAutoIncrement then max after (highest + 1) else after
  if next ≤ Int64.maxValue.toInt then .ok (Int64.ofInt next) else .error .full

/-- The number of a row, given the value for it. -/
def numberOf (t : Table) (highest : Int) (given : Value) : Except EngineFault Int64 :=
  match Cell.toWhole (Cell.toNumber given) with
  | .null => t.nextNumber highest
  | .integer n => .ok n
  | _ => .error .wrongType

/-- The cells of a new row: what is written to each column, or its default. -/
def newCells (t : Table) (written : List (Nat × Value)) : List Value :=
  t.columns.mapIdx fun i c => Cell.stored c.affinity ((written.lookup i).getD c.defaultValue)

/-- The row of what is written. Of several values for its number, the last
one counts. -/
def newRow (t : Table) (highest : Int) (written : List (Nat × Value)) : Except EngineFault TableRow := do
  let cells := t.newCells written
  let i := t.numberColumn.getD t.columns.length
  let number ← t.numberOf highest ((written.reverse.lookup i).getD .null)
  return ⟨number, cells.set i (.integer number)⟩

/-- A row with the defaults of the required columns that it leaves empty. -/
def fillRequired (t : Table) (r : TableRow) : TableRow :=
  { r with cells := t.columns.mapIdx fun i c =>
      let v := r.cells.getD i .null
      if c.isRequired && v.isNull then Cell.stored c.affinity c.defaultValue else v }

/-- Puts a row into the table, and says whether it did and whether others
had to make room. -/
def put (t : Table) (policy : ConflictPolicy) (r : TableRow) :
    Except EngineFault (Table × Bool × Bool) := do
  let r := if policy = .replace then t.fillRequired r else r
  if (t.missingColumn? r).isSome then
    if policy = .ignore then return (t, false, false) else throw .emptyColumn
  let (inTheWay, kept) := t.rows.partition (t.conflict r)
  if !inTheWay.isEmpty && policy = .ignore then return (t, false, false)
  if !inTheWay.isEmpty && policy ≠ .replace then throw .notUnique
  return ({ t with rows := insertRow r kept }, true, !inTheWay.isEmpty)

/-- A value that does not depend on a row. -/
def constant (args : List Value) (t : NamedTerm) : Except EngineFault Value := do
  if t.isAggregate then throw .unsupported
  (← Scope.resolve [] t).eval args 1 []

/-- What is written to the columns of a table, by their positions. -/
def writes (t : Table) (args : List Value) (entries : List (String × NamedTerm)) :
    Except EngineFault (List (Nat × Value)) :=
  entries.mapM fun (name, term) => do return (← t.cellIndex name, ← constant args term)

end Table

namespace Database

/-- A row that has been put into its table, or skipped, before foreign keys
are checked. -/
structure Insertion where
  database : Database
  table : Table
  /-- The number of the row, unless it was skipped. -/
  number : Option Int64
  /-- Whether other rows had to make room. -/
  hasReplaced : Bool
  /-- Whether foreign keys are checked only after the row has been stored. -/
  isCheckedLate : Bool

/-- Whether foreign keys have to do with a table. -/
def hasForeignKeys (d : Database) (t : Table) : Bool :=
  !t.foreignKeys.isEmpty ||
    d.tables.any fun u => u.foreignKeys.any fun fk => Keyword.same fk.targetTable t.name

/-- Puts a row into a table. Foreign keys are checked late where rows might
have to make room for it. -/
def insertRow (d : Database) (table : String) (policy : ConflictPolicy)
    (entries : List (String × NamedTerm)) (args : List Value) : Except EngineFault Insertion := do
  let t ← d.table table
  let written ← t.writes args entries
  t.foreignKeys.forM fun fk => do discard (d.target fk)
  let highest := (d.highestNumber? t.name).getD 0
  let r ← t.newRow highest written
  let (changed, isStored, hasReplaced) ← t.put policy r
  let givesNumber := written.any fun (i, _) => t.numberColumn == some i
  let d := d.replaceTable changed
  return {
    database := if t.isAutoIncrement then d.recordNumber t.name (max highest r.number.toInt) else d
    table := changed
    number := if isStored then some r.number else none
    hasReplaced
    isCheckedLate :=
      policy = .replace && (givesNumber || !t.uniqueGroups.isEmpty) && d.hasForeignKeys t }

/-- Checks the foreign keys that an insertion can break. -/
def Insertion.check (i : Insertion) : Except EngineFault Unit := do
  if i.number.isSome then i.database.checkOwn i.table fun _ => true
  if i.hasReplaced then i.database.checkReferring i.table fun _ => true

/-- Assigns values to columns, the last of several to the same column. -/
def assign (t : Table) (assignments : List (Nat × PlacedTerm)) (args : List Value) (r : TableRow) :
    Except EngineFault TableRow := do
  let written ← assignments.mapM fun (i, term) => do return (i, ← term.eval args 1 (t.cellsOf r))
  let cells := t.columns.mapIdx fun i c =>
    match written.reverse.lookup i with
    | some v => Cell.stored c.affinity v
    | none => r.cells.getD i .null
  let i := t.numberColumn.getD t.columns.length
  match written.reverse.lookup i with
  | none => return { r with cells }
  | some v =>
    match Cell.stored .integer v with
    | .integer n => return ⟨n, cells.set i (.integer n)⟩
    | _ => throw .wrongType

/-- Whether a condition accepts a row, and the plan for it finds it. -/
def meets (t : Table) (condition : PlacedTerm) (plan : Plan) (args : List Value) (r : TableRow) :
    Except EngineFault Bool := do
  if ← condition.accepts args 1 (t.cellsOf r) then plan.finds args (t.cellsOf r) else return false

/-- Updates the rows that a condition accepts, and counts them. -/
def update (d : Database) (table : String) (assignments : List (String × NamedTerm))
    (condition : Option NamedTerm) (args : List Value) : Except EngineFault (Database × Nat) := do
  let t ← d.table table
  let scope := Scope.ofTable t
  let placed ← assignments.mapM fun (name, term) => do
    if term.isAggregate then throw .unsupported
    return (← t.cellIndex name, ← scope.resolve term)
  let condition ← scope.resolveCondition condition
  let names := placed.filterMap fun (i, _) => (t.columns[i]?).map (·.name)
  let writesLocal (fk : ForeignKey) : Bool := names.any (Keyword.same fk.localColumn)
  let writesTarget (fk : ForeignKey) : Bool := names.any (Keyword.same fk.targetColumn)
  (t.foreignKeys.filter writesLocal).forM fun fk => do discard (d.target fk)
  let plan := Plan.ofTable d t condition
  let rows ← t.rows.mapM fun r => do
    if ← meets t condition plan args r then return (true, ← assign t placed args r)
    else return (false, r)
  let changed := rows.filter (·.1)
  if changed.any fun (_, r) => (t.missingColumn? r).isSome then throw .emptyColumn
  let t := { t with rows := Table.sortRows (rows.map (·.2)) }
  if !t.isConsistent t.rows then throw .notUnique
  let d := d.replaceTable t
  d.checkOwn t writesLocal
  d.checkReferring t writesTarget
  return (d, changed.length)

/-- Deletes the rows that a condition accepts, and counts them. -/
def delete (d : Database) (table : String) (condition : Option NamedTerm) (args : List Value) :
    Except EngineFault (Database × Nat) := do
  let t ← d.table table
  let condition ← (Scope.ofTable t).resolveCondition condition
  let plan := Plan.ofTable d t condition
  let rows ← t.rows.mapM fun r => do return (← meets t condition plan args r, r)
  let t := { t with rows := (rows.filter (!·.1)).map (·.2) }
  let changed := d.replaceTable t
  changed.checkOwn t fun _ => true
  changed.checkReferring t fun _ => true
  return (changed, (rows.filter (·.1)).length)

end Database

end TypedTables

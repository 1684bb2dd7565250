import TypedTables.Database.Table
/-!
# TypedTables — the highest numbers of rows

A table of the engine's own has a row for every table that numbers its rows
automatically, from the first insertion on: its name and the highest number
that it has used. It can be read and changed as any other table.
-/

namespace TypedTables

namespace Database

/-- The table of the highest numbers before there are any. -/
def sequenceTable : Table :=
  { name := "sqlite_sequence"
    columns := [{ name := "name", affinity := .blob }, { name := "seq", affinity := .blob }]
    definition := "sqlite_sequence(name,seq)" }

/-- The database with a table of the highest numbers. -/
def withSequence (d : Database) : Database :=
  if (d.table? sequenceTable.name).isSome then d
  else { d with tables := d.tables ++ [{ sequenceTable with serial := d.nextSerial }] }

/-- Whether a row is that of the table of a name. -/
def isEntryOf (name : String) (r : TableRow) : Bool := r.cells.head? == some (.text name)

/-- The whole number that a cell counts as. -/
def wholeOf (v : Value) : Int :=
  match Cell.toWhole (Cell.toNumber v) with
  | .integer n => n.toInt
  | _ => 0

/-- The highest number that a table has used, if it has an entry. -/
def highestNumber? (d : Database) (name : String) : Option Int := do
  let t ← d.table? sequenceTable.name
  let r ← t.rows.find? (isEntryOf name)
  return wholeOf (r.cells.getD 1 .null)

/-- The rows with the highest number of a table: its entry is changed, or a
new one is put behind the others. -/
def recordIn (rows : List TableRow) (name : String) (number : Int) : List TableRow :=
  match rows.findIdx? (isEntryOf name) with
  | some i => rows.modify i fun r => { r with cells := r.cells.set 1 (.integer (Int64.ofInt number)) }
  | none =>
    let last := (rows.getLast?.map (·.number)).getD 0
    rows ++ [⟨last + 1, [.text name, .integer (Int64.ofInt number)]⟩]

/-- The database after a table has used a number. -/
def recordNumber (d : Database) (name : String) (number : Int) : Database :=
  match d.table? sequenceTable.name with
  | some t =>
    if (d.highestNumber? name).any (number ≤ ·) then d
    else d.replaceTable { t with rows := recordIn t.rows name number }
  | none => d

/-- The database without the entries of a table. -/
def forgetNumbers (d : Database) (name : String) : Database :=
  match d.table? sequenceTable.name with
  | some t => d.replaceTable { t with rows := t.rows.filter fun r => !isEntryOf name r }
  | none => d

end Database

end TypedTables

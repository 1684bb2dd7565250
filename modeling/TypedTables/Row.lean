import TypedTables.Value.FieldType
/-!
# TypedTables — rows and payloads

A `Row` is read by column name and never by position, so it does not matter
in which order a store returns its columns; where a name occurs twice, the
first column of that name counts. `Values` is what an insert or an update
writes: columns with their values, each column once, in the order in which
they were first put. A `Cursor` is a buffered result whose rows share one
list of column names.
-/

namespace TypedTables

/-- One result row. -/
structure Row where
  columns : List String
  values : List Value
deriving Repr, DecidableEq

namespace Row

/-- The cell under a column name. -/
def value? (r : Row) (column : String) : Option Value := (r.columns.zip r.values).lookup column

/-- The cell under a column name, or the fault of its absence. -/
def value (r : Row) (column : String) : Except MappingError Value :=
  match r.value? column with
  | some v => .ok v
  | none => .error (.missingColumn column)

/-- The cell under a column name, read as a value of the type. -/
def get (r : Row) (t : FieldType) (column : String) : Except MappingError t.Carrier := do
  t.ofValue column (← r.value column)

end Row

/-- Columns and the values to write to them, in order. -/
structure Values where
  entries : List (String × Value)
deriving Repr, DecidableEq, Inhabited

namespace Values

def empty : Values := ⟨[]⟩

/-- Sets a column: in its place if it is there, at the end otherwise. -/
def putEntry (column : String) (value : Value) : List (String × Value) → List (String × Value)
  | [] => [(column, value)]
  | (c, v) :: rest =>
    if c = column then (c, value) :: rest else (c, v) :: putEntry column value rest

def put (vs : Values) (column : String) (value : Value) : Values :=
  ⟨putEntry column value vs.entries⟩

/-- Collects pairs by putting one after the other. -/
def ofList (entries : List (String × Value)) : Values :=
  entries.foldl (fun vs (column, value) => vs.put column value) empty

def get? (vs : Values) (column : String) : Option Value := vs.entries.lookup column

def contains (vs : Values) (column : String) : Bool := (vs.get? column).isSome

def columns (vs : Values) : List String := vs.entries.map Prod.fst

def values (vs : Values) : List Value := vs.entries.map Prod.snd

def size (vs : Values) : Nat := vs.entries.length

def isEmpty (vs : Values) : Bool := vs.entries.isEmpty

/-- The values without one column. -/
def without (vs : Values) (column : String) : Values :=
  ofList (vs.entries.filter fun entry => entry.1 != column)

/-- The row a store would return after storing these values: a column that
was not written is empty. -/
def toRow (vs : Values) (columns : List String) : Row :=
  ⟨columns, columns.map fun c => (vs.get? c).getD .null⟩

end Values

/-- A buffered result: column names, and the rows that are left. -/
structure Cursor where
  columns : List String
  rows : List (List Value)
deriving Repr, DecidableEq, Inhabited

namespace Cursor

def empty : Cursor := ⟨[], []⟩

/-- How many rows have not been taken yet. -/
def remaining (c : Cursor) : Nat := c.rows.length

/-- Takes the next row. -/
def next? (c : Cursor) : Option (Row × Cursor) :=
  match c.rows with
  | [] => none
  | values :: rest => some (⟨c.columns, values⟩, { c with rows := rest })

/-- The rows that are left. -/
def toRows (c : Cursor) : List Row := c.rows.map fun values => ⟨c.columns, values⟩

end Cursor

end TypedTables

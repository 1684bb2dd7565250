import TypedTables.Database.Table
import TypedTables.Schema.Written
import TypedTables.Value.Written
/-!
# TypedTables — the written form of a database

How a database is kept in a file: as a document with its tables and
indexes, down to the last cell, so that reading gives back exactly what was
written.
-/

namespace TypedTables

/-- A natural number without a bound. -/
def Decoder.natural : Decoder Nat
  | _, .integer (.ofNat n) => some n
  | _, _ => none

namespace Document

def ofNaturals (ns : List Nat) : Document := .list (ns.map fun n : Nat => .integer n)

end Document

namespace ColumnAffinity

def name : ColumnAffinity → String
  | .integer => "integer"
  | .real => "real"
  | .numeric => "numeric"
  | .text => "text"
  | .blob => "blob"

def all : List ColumnAffinity := [.integer, .real, .numeric, .text, .blob]

def ofName? (s : String) : Option ColumnAffinity := all.find? fun a => a.name == s

end ColumnAffinity

namespace Column

def toDocument (c : Column) : Document :=
  .map [("name", .text c.name), ("affinity", .text c.affinity.name),
    ("is_required", .bool c.isRequired), ("default_value", c.defaultValue.toDocument)]

def decoder : Decoder Column :=
  .record ["name", "affinity", "is_required", "default_value"] true fun m => do
    return {
      name := ← m.required "name" .text
      affinity := ← m.required "affinity" (.named ColumnAffinity.ofName?)
      isRequired := ← m.required "is_required" .bool
      defaultValue := ← m.required "default_value" Value.decoder }

end Column

namespace TableRow

def toDocument (r : TableRow) : Document :=
  .map [("number", .integer r.number.toInt), ("cells", .list (r.cells.map Value.toDocument))]

def decoder : Decoder TableRow :=
  .record ["number", "cells"] true fun m => do
    return ⟨← m.required "number" .int64, ← m.required "cells" (.list Value.decoder)⟩

end TableRow

namespace Table

def toDocument (t : Table) : Document :=
  .map <|
    [("name", .text t.name), ("columns", .list (t.columns.map Column.toDocument))] ++
      Document.optionalMember "number_column" (t.numberColumn.map fun i => .integer i) ++
      [("is_auto_increment", .bool t.isAutoIncrement),
        ("unique_groups", .list (t.uniqueGroups.map Document.ofNaturals)),
        ("foreign_keys", .list (t.foreignKeys.map ForeignKey.toDocument)),
        ("rows", .list (t.rows.map TableRow.toDocument)), ("serial", .integer t.serial),
        ("definition", .text t.definition)]

def decoder : Decoder Table :=
  .record ["name", "columns", "number_column", "is_auto_increment", "unique_groups", "foreign_keys",
    "rows", "serial", "definition"] true fun m => do
    return {
      name := ← m.required "name" .text
      columns := ← m.required "columns" (.list Column.decoder)
      numberColumn := ← m.withDefault "number_column" none (.optional .natural)
      isAutoIncrement := ← m.required "is_auto_increment" .bool
      uniqueGroups := ← m.required "unique_groups" (.list (.list .natural))
      foreignKeys := ← m.required "foreign_keys" (.list (ForeignKey.decoderWith true))
      rows := ← m.required "rows" (.list TableRow.decoder)
      serial := ← m.required "serial" .natural
      definition := ← m.required "definition" .text }

end Table

namespace Index

def toDocument (i : Index) : Document :=
  .map [("name", .text i.name), ("table", .text i.table), ("columns", .ofTexts i.columns),
    ("serial", .integer i.serial), ("definition", .text i.definition)]

def decoder : Decoder Index :=
  .record ["name", "table", "columns", "serial", "definition"] true fun m => do
    return ⟨← m.required "name" .text, ← m.required "table" .text,
      ← m.required "columns" (.list .text), ← m.required "serial" .natural,
      ← m.required "definition" .text⟩

end Index

namespace Database

def toDocument (d : Database) : Document :=
  .map [("tables", .list (d.tables.map Table.toDocument)),
    ("indexes", .list (d.indexes.map Index.toDocument))]

def decoder : Decoder Database :=
  .record ["tables", "indexes"] true fun m => do
    return ⟨← m.required "tables" (.list Table.decoder), ← m.required "indexes" (.list Index.decoder)⟩

end Database

end TypedTables

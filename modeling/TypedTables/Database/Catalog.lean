import TypedTables.Database.Table
/-!
# TypedTables — the catalog

A table that lists the tables and indexes of a database, in the order in
which they were created. It is computed from them and can only be read.
-/

namespace TypedTables

/-- A table or an index, as the catalog lists it. -/
structure CatalogEntry where
  serial : Nat
  kind : String
  name : String
  table : String
  definition : Option String

namespace CatalogEntry

/-- The text that the catalog gives as the definition of a table or an index. -/
def text (kind definition : String) : String := "CREATE " ++ kind ++ " " ++ definition

/-- A table, with the indexes that keep its unique groups. -/
def ofTable (t : Table) : List CatalogEntry :=
  ⟨t.serial, "table", t.name, t.name, some (text "TABLE" t.definition)⟩ ::
    t.uniqueGroups.mapIdx fun i _ =>
      ⟨t.serial + i + 1, "index", "sqlite_autoindex_" ++ t.name ++ "_" ++ toString (i + 1), t.name, none⟩

def ofIndex (i : Index) : CatalogEntry :=
  ⟨i.serial, "index", i.name, i.table, some (text "INDEX" i.definition)⟩

/-- The row of an entry. The first page of a database is the catalog's own. -/
def toRow (e : CatalogEntry) : TableRow :=
  ⟨Int64.ofNat e.serial, [.text e.kind, .text e.name, .text e.table, .integer (Int64.ofNat (e.serial + 1)),
    (e.definition.map .text).getD .null]⟩

end CatalogEntry

namespace Database

/-- Whether a name is one of the catalog's. -/
def isSchemaName (name : String) : Bool :=
  ["sqlite_master", "sqlite_schema"].any (Keyword.same name)

/-- The catalog under one of its names. -/
def catalog (d : Database) (name : String) : Table :=
  let entries := d.tables.flatMap CatalogEntry.ofTable ++ d.indexes.map CatalogEntry.ofIndex
  { name
    columns := [{ name := "type", affinity := .text }, { name := "name", affinity := .text },
      { name := "tbl_name", affinity := .text }, { name := "rootpage", affinity := .integer },
      { name := "sql", affinity := .text }]
    rows := (entries.mergeSort fun a b => a.serial ≤ b.serial).map CatalogEntry.toRow }

/-- A table that a query can read: one of the database's, or its catalog. -/
def readable (d : Database) (name : String) : Except EngineFault Table :=
  if isSchemaName name then .ok (d.catalog name) else d.table name

end Database

end TypedTables

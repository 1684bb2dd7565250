import TypedTables.Document.Decoder
import TypedTables.Schema.Table
/-!
# TypedTables — generator options

What can be chosen about generated sources. Everything is on unless it is
turned off.
-/

namespace TypedTables

/-- The comment at the top of every generated file. -/
def defaultHeader : String := "@generated by model-query. Do not edit."

structure GeneratorOptions where
  /-- Whether tables and indexes that are there already are left alone. -/
  ifNotExists : Bool := true
  /-- Whether indexes are created. -/
  emitIndexes : Bool := true
  /-- Whether each module has functions that start a query. -/
  emitEntryPoints : Bool := true
  /-- The comment at the top of every file. -/
  header : String := defaultHeader
deriving Repr, DecidableEq

namespace GeneratorOptions

/-- The options for the tables. -/
def ddl (o : GeneratorOptions) : DdlOptions :=
  { ifNotExists := o.ifNotExists, emitIndexes := o.emitIndexes }

def toDocument (o : GeneratorOptions) : Document :=
  .map [("if_not_exists", .bool o.ifNotExists), ("emit_indexes", .bool o.emitIndexes),
    ("emit_entry_points", .bool o.emitEntryPoints), ("header", .text o.header)]

def decoder : Decoder GeneratorOptions :=
  .record ["if_not_exists", "emit_indexes", "emit_entry_points", "header"] false fun m => do
    return {
      ifNotExists := ← m.withDefault "if_not_exists" true .bool
      emitIndexes := ← m.withDefault "emit_indexes" true .bool
      emitEntryPoints := ← m.withDefault "emit_entry_points" true .bool
      header := ← m.withDefault "header" defaultHeader .text }

end GeneratorOptions

end TypedTables

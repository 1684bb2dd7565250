import TypedTables.Schema.CreationOrder
import TypedTables.Schema.Table
/-!
# TypedTables — schema plans

A plan lists the tables of a schema, in creation order, and the statements
that create them and their indexes.
-/

namespace TypedTables

structure SchemaPlan where
  tables : List String := []
  statements : List String := []
deriving Repr, DecidableEq

namespace SchemaPlan

/-- The plan for some models: all tables first, then all indexes. -/
def ofModels (models : List Model) (o : DdlOptions) : SchemaPlan :=
  let ordered := Model.creationOrder models
  { tables := ordered.map (·.tableName)
    statements := ordered.map (·.createTable o) ++ ordered.flatMap (·.createIndexes o) }

/-- The plan with one more table, given by its name and statements. -/
def add (p : SchemaPlan) (table : String) (createTable : String) (createIndexes : List String) :
    SchemaPlan :=
  { tables := p.tables ++ [table]
    statements := p.statements ++ createTable :: createIndexes }

def isEmpty (p : SchemaPlan) : Bool := p.tables.isEmpty

end SchemaPlan

end TypedTables

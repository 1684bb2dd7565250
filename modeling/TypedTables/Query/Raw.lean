import TypedTables.Query.Select
/-!
# TypedTables — queries in SQL

A raw builder runs a query that is given as SQL text. Only a local store
takes it. It counts as configured from the start, and binding arguments
does not change that.
-/

namespace TypedTables

/-- A query in SQL. -/
structure Raw where
  sql : String
  args : List Value := []
deriving Repr

namespace Raw

variable {α σ : Type}

/-- A builder for a query. -/
def builder (sql : String) : Builder Raw := ⟨{ sql }, .configured⟩

/-- The builder with other arguments. -/
def setArgs (args : List Value) (b : Builder Raw) : Builder Raw :=
  { b with settings := { b.settings with args } }

/-- The rows of the query. -/
def rows (store : Storage σ) (s : Raw) : QueryM σ Cursor := do
  ExceptT.mk (pure (Select.requireLocal store.kind (some .rawQuery)))
  QueryM.ofStore (store.raw ⟨s.sql, s.args⟩)

/-- The rows of the query, to be mapped to a model. -/
def query (m : Mapping α) (store : Storage σ) (s : Raw) : QueryM σ (Results α) := do
  let cursor ← s.rows store
  return ⟨m, cursor⟩

def builderName : String := "raw"

end Raw

end TypedTables

import TypedTables.Mapping
import TypedTables.Query.Builder
/-!
# TypedTables — updating

An update builder writes values to the rows of a condition. Given a struct
it writes the payload of that struct but for its key, to the row that has
the key. An update without values is refused.
-/

namespace TypedTables

/-- What an update builder can be set to. -/
structure Update where
  values : Values := .empty
  filter : Option Clause := none

/-- A setting of an update builder for structs of a type. -/
inductive UpdateSetting (α : Type)
  | values (values : Values)
  | set (column : String) (value : Value)
  | filter (clause : Clause)
  | model (x : α)

namespace Update

variable {α σ : Type}

/-- The settings with one more made. -/
def set (m : Mapping α) : UpdateSetting α → Update → Update
  | .values values, s => { s with values }
  | .set column value, s => { s with values := s.values.put column value }
  | .filter clause, s => { s with filter := some clause }
  | .model x, _ =>
    { values := (m.toValues x).without m.keyColumn
      filter := some (.eq m.keyColumn (m.key x)) }

/-- Updates the rows and counts those that changed. -/
def run (m : Mapping α) (store : Storage σ) (s : Update) : QueryM σ Nat := do
  if s.values.isEmpty then throw (.emptyUpdate m.table)
  let selection ← QueryM.ofClause (Clause.compileOption s.filter)
  QueryM.ofStore (store.update m.table s.values selection)

def builderName : String := "update"

end Update

end TypedTables

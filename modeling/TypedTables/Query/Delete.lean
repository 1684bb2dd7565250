import TypedTables.Mapping
import TypedTables.Query.Builder
/-!
# TypedTables — deleting and counting

A delete builder removes the rows of a condition, and all rows without one.
A count builder counts them. Given a struct, a delete targets the row that
has its key.
-/

namespace TypedTables

/-- What a delete builder can be set to. -/
structure Delete where
  filter : Option Clause := none

/-- A setting of a delete builder for structs of a type. -/
inductive DeleteSetting (α : Type)
  | filter (clause : Clause)
  | model (x : α)

namespace Delete

variable {α σ : Type}

/-- The settings with one more made. -/
def set (m : Mapping α) : DeleteSetting α → Delete → Delete
  | .filter clause, _ => { filter := some clause }
  | .model x, _ => { filter := some (.eq m.keyColumn (m.key x)) }

/-- Removes the rows and counts them. -/
def run (m : Mapping α) (store : Storage σ) (s : Delete) : QueryM σ Nat := do
  let selection ← QueryM.ofClause (Clause.compileOption s.filter)
  QueryM.ofStore (store.delete m.table selection)

def builderName : String := "delete"

end Delete

/-- What a count builder can be set to. -/
structure Count where
  filter : Option Clause := none

namespace Count

variable {α σ : Type}

/-- The settings with another condition. -/
def set (clause : Clause) (_ : Count) : Count := { filter := some clause }

/-- Counts the rows. -/
def run (m : Mapping α) (store : Storage σ) (s : Count) : QueryM σ Nat := do
  let selection ← QueryM.ofClause (Clause.compileOption s.filter)
  QueryM.ofStore (store.count m.table selection)

def builderName : String := "count"

end Count

end TypedTables

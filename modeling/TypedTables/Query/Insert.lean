import TypedTables.Mapping
import TypedTables.Query.Builder
/-!
# TypedTables — inserting

An insert builder gathers rows and writes them in one call. Rows that break
a constraint are left out unless another policy is set.
-/

namespace TypedTables

/-- What an insert builder can be set to. -/
structure Insert where
  rows : List Values := []
  policy : ConflictPolicy := .ignore
deriving Repr

/-- A setting of an insert builder for structs of a type. -/
inductive InsertSetting (α : Type)
  | model (x : α)
  | models (xs : List α)
  | values (values : Values)
  | conflict (policy : ConflictPolicy)

namespace Insert

variable {α σ : Type}

/-- The settings with one more made. -/
def set (m : Mapping α) : InsertSetting α → Insert → Insert
  | .model x, s => { s with rows := s.rows ++ [m.toValues x] }
  | .models xs, s => { s with rows := s.rows ++ xs.map m.toValues }
  | .values values, s => { s with rows := s.rows ++ [values] }
  | .conflict policy, s => { s with policy }

/-- Inserts the rows and counts those that were stored. Without rows the
store is not asked. -/
def run (m : Mapping α) (store : Storage σ) (s : Insert) : QueryM σ Nat :=
  if s.rows.isEmpty then return 0 else QueryM.ofStore (store.insert m.table s.rows s.policy)

def builderName : String := "insert"

end Insert

end TypedTables

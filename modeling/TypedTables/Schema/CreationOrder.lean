import TypedTables.Schema.Model
/-!
# TypedTables — the order in which tables are created

A table comes after the tables its foreign keys point to. Of the tables
that can be created next the first one in the given order is taken; where a
cycle of references leaves none, the first of all. References of a table to
itself and to tables outside the list do not count.
-/

namespace TypedTables

namespace Model

/-- Whether a table with this name is among the models. -/
def anyTable (models : List Model) (table : String) : Bool := models.any (·.tableName == table)

/-- Whether every table that the model refers to is there already, is its
own, or will never be created. -/
def isReady (placed pending : List Model) (m : Model) : Bool :=
  m.foreignKeys.all fun fk =>
    fk.targetTable == m.tableName || anyTable placed fk.targetTable ||
      !anyTable pending fk.targetTable

/-- Places the pending models one after the other, as many as are asked for. -/
def arrange : Nat → List Model → List Model → List Model
  | 0, _, _ => []
  | _ + 1, _, [] => []
  | n + 1, placed, first :: rest =>
    let pending := first :: rest
    match pending.find? (isReady placed pending) with
    | some m => m :: arrange n (placed ++ [m]) (pending.eraseP (isReady placed pending))
    | none => first :: arrange n (placed ++ [first]) rest

/-- The models in an order in which their tables can be created. -/
def creationOrder (models : List Model) : List Model := arrange models.length [] models

end Model

end TypedTables

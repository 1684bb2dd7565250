import TypedTables.Database.Engine
import TypedTables.Storage
/-!
# TypedTables — local databases

The store of a local provider: it turns every operation into a statement
and has an engine run it. An insertion of several rows is one transaction,
so that either all of them are inserted or none is.
-/

namespace TypedTables

/-- What a fault of the engine means to the user of a database. A text
without characters is a fault of what is stored. -/
def DatabaseError.ofFault : EngineFault → DatabaseError
  | .unreadableText fault => .conversion ("text is not UTF-8: " ++ fault.message)
  | fault => .engine fault

namespace LocalDatabase

variable {δ α : Type}

/-- A step of the engine. -/
def onEngine (action : ConnectionM δ EngineFault α) : ConnectionM δ DatabaseError α :=
  action.adapt DatabaseError.ofFault

/-- Inserts rows one after the other and counts those that were stored. -/
def insertEach (e : Engine δ) (table : String) (policy : ConflictPolicy) :
    List Values → ConnectionM δ DatabaseError Nat
  | [] => return 0
  | row :: rows => do
    let first ← onEngine (e.execute (Statement.insert table row policy))
    return first + (← insertEach e table policy rows)

/-- Inserts rows in one transaction. -/
def insertAll (e : Engine δ) (table : String) (rows : List Values) (policy : ConflictPolicy) :
    ConnectionM δ DatabaseError Nat :=
  e.transaction DatabaseError.ofFault (insertEach e table policy rows)

/-- The count that a query for it answers. -/
def countOf (c : Cursor) : Except DatabaseError Nat :=
  match c.rows with
  | (.integer n :: _) :: _ =>
    if 0 ≤ n.toInt then .ok n.toInt.toNat
    else .error (.conversion ("negative row count " ++ toString n.toInt))
  | _ => .error (.engine .wrongType)

/-- Counts the rows of a selection. -/
def count (e : Engine δ) (table : String) (selection : Sql) : ConnectionM δ DatabaseError Nat := do
  let cursor ← onEngine (e.query (Statement.count table selection))
  match countOf cursor with
  | .ok n => return n
  | .error error => throw error

/-- An operation of the store. -/
def asStore (action : ConnectionM δ DatabaseError α) : StoreM (Connection δ) α :=
  action.adapt StorageError.database

/-- A database as the store of a provider. -/
def storage (e : Engine δ) : Storage (Connection δ) :=
  { kind := .local
    select := fun r => asStore (onEngine (e.query (Statement.select r)))
    insert := fun table rows policy => asStore (insertAll e table rows policy)
    update := fun table values selection =>
      asStore (onEngine (e.execute (Statement.update table values selection)))
    delete := fun table selection => asStore (onEngine (e.execute (Statement.delete table selection)))
    count := fun table selection => asStore (count e table selection)
    raw := fun statement => asStore (onEngine (e.query statement)) }

end LocalDatabase

end TypedTables

import TypedTables.Database.Error
import TypedTables.Schema.Provider
import TypedTables.Sql.Statement
/-!
# TypedTables — storage

A `Storage` is what carries out reads and writes, whatever it stores its
rows in. Its operations run over a state of its own, which they may change
whether they succeed or fail; each receives conditions compiled to SQL and
never a clause.
-/

namespace TypedTables

/-- Why a storage operation failed. -/
inductive StorageError
  /-- The store's own words. -/
  | failure (message : String)
  /-- The store has no such feature. -/
  | unsupported (feature : Feature)
  /-- The local database failed. -/
  | database (error : DatabaseError)
deriving Repr, DecidableEq

/-- The message for a feature that content stores do not have. -/
def Feature.unsupportedMessage (f : Feature) : String :=
  f.name ++ " is not supported by content-style providers"

def StorageError.message : StorageError → String
  | .failure message => message
  | .unsupported feature => feature.unsupportedMessage
  | .database error => error.message

/-- An operation over the state of a store. The state is there also after an
operation that fails. -/
abbrev StoreM (σ : Type) := ExceptT StorageError (StateM σ)

/-- The operations of a store. -/
structure Storage (σ : Type) where
  kind : ProviderKind
  /-- The rows of a query. -/
  select : SelectRequest → StoreM σ Cursor
  /-- Inserts rows and counts those that were stored. -/
  insert : (table : String) → List Values → ConflictPolicy → StoreM σ Nat
  /-- Writes values to the selected rows and counts those that changed. -/
  update : (table : String) → Values → (selection : Sql) → StoreM σ Nat
  /-- Removes the selected rows and counts them. -/
  delete : (table : String) → (selection : Sql) → StoreM σ Nat
  /-- Counts the selected rows. -/
  count : (table : String) → (selection : Sql) → StoreM σ Nat
  /-- The rows of a query in SQL. -/
  raw : Sql → StoreM σ Cursor

end TypedTables

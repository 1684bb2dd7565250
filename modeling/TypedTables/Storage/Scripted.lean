import TypedTables.Storage.ContentStore
/-!
# TypedTables — scripted stores

A store and a resolver that answer from a script and keep a log of what
they were asked. They stand in for real ones wherever the calls are what
matters: what is asked, in which order, and what is not asked at all.
-/

namespace TypedTables

/-- What a scripted store answers. -/
structure Script where
  columns : List String := []
  rows : List (List Value) := []
  /-- How many rows an update or a delete says it changed. -/
  affected : Nat := 1
  /-- The failure that every call answers with, if there is one. -/
  failure : Option String := none
deriving Repr

namespace Script

/-- Logs a call and answers it. -/
def respond {κ α : Type} (s : Script) (call : κ) (answer : α) : StoreM (List κ) α := do
  modify (· ++ [call])
  match s.failure with
  | some message => throw (.failure message)
  | none => return answer

def cursor (s : Script) : Cursor := ⟨s.columns, s.rows⟩

end Script

/-- A call into a store. -/
inductive StoreCall
  | select (request : SelectRequest)
  | insert (table : String) (rows : List Values) (policy : ConflictPolicy)
  | update (table : String) (values : Values) (selection : Sql)
  | delete (table : String) (selection : Sql)
  | count (table : String) (selection : Sql)
  | raw (statement : Sql)
deriving Repr

/-- A call into a resolver. -/
inductive ResolverCall
  | query (query : ContentQuery)
  | bulkInsert (uri : String) (rows : List Values)
  | update (uri : String) (values : Values) (selection : Option String) (args : List Value)
  | delete (uri : String) (selection : Option String) (args : List Value)
deriving Repr

/-- A store of a kind that answers from a script. -/
def Storage.scripted (kind : ProviderKind) (s : Script) : Storage (List StoreCall) :=
  { kind
    select := fun r => s.respond (.select r) s.cursor
    insert := fun table rows policy => s.respond (.insert table rows policy) rows.length
    update := fun table values selection => s.respond (.update table values selection) s.affected
    delete := fun table selection => s.respond (.delete table selection) s.affected
    count := fun table selection => s.respond (.count table selection) s.rows.length
    raw := fun statement => s.respond (.raw statement) s.cursor }

/-- A resolver that answers from a script. -/
def Resolver.scripted (s : Script) : Resolver (List ResolverCall) :=
  { query := fun q => s.respond (.query q) s.cursor
    bulkInsert := fun uri rows => s.respond (.bulkInsert uri rows) rows.length
    update := fun uri values selection args =>
      s.respond (.update uri values selection args) s.affected
    delete := fun uri selection args => s.respond (.delete uri selection args) s.affected }

end TypedTables

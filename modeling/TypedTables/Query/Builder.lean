import TypedTables.Storage
/-!
# TypedTables — builders

A builder gathers settings and then runs once. `Builder.configure` changes
the settings at any time; `Builder.execute` runs with the settings of the
moment the first time it is called, and refuses every later time, whether
the first run succeeded or not.
-/

namespace TypedTables

/-- Where a builder is in its life. -/
inductive BuilderState
  /-- Nothing is set yet. -/
  | unconfigured
  /-- At least one setting was made. -/
  | configured
  /-- It was executed, for good. -/
  | executed
deriving Repr, DecidableEq

namespace BuilderState

def name : BuilderState → String
  | .unconfigured => "unconfigured"
  | .configured => "configured"
  | .executed => "executed"

/-- The state after a setting. -/
def configure : BuilderState → BuilderState
  | .executed => .executed
  | _ => .configured

end BuilderState

/-- Why a query failed. -/
inductive QueryError
  /-- A condition cannot be compiled. -/
  | clause (error : ClauseError)
  /-- The store cannot express part of the query. -/
  | unsupported (feature : Feature)
  /-- A row cannot be mapped to the model. -/
  | mapping (error : MappingError)
  /-- The store failed. -/
  | storage (error : StorageError)
  /-- The builder was executed before. -/
  | alreadyExecuted (builder : String)
  /-- An update has nothing to write. -/
  | emptyUpdate (table : String)
deriving Repr, DecidableEq

def QueryError.message : QueryError → String
  | .clause error => error.message
  | .unsupported feature => feature.unsupportedMessage
  | .mapping error => error.message
  | .storage error => error.message
  | .alreadyExecuted builder => builder ++ " builder has already been executed"
  | .emptyUpdate table => "update on table '" ++ table ++ "' has no values to set"

/-- A query over the state of a store. -/
abbrev QueryM (σ : Type) := ExceptT QueryError (StateM σ)

namespace QueryM

variable {σ α : Type}

/-- A storage operation as a step of a query. -/
def ofStore (op : StoreM σ α) : QueryM σ α := ExceptT.adapt QueryError.storage op

/-- The SQL of a condition, or its fault. -/
def ofClause (compiled : Except ClauseError α) : QueryM σ α :=
  ExceptT.mk (pure (compiled.mapError QueryError.clause))

/-- The result of mapping a row, or its fault. -/
def ofMapping (mapped : Except MappingError α) : QueryM σ α :=
  ExceptT.mk (pure (mapped.mapError QueryError.mapping))

end QueryM

/-- Settings, and where the builder is in its life. -/
structure Builder (S : Type) where
  settings : S
  state : BuilderState := .unconfigured
deriving Repr

namespace Builder

variable {S σ α : Type}

/-- Changes the settings. -/
def configure (b : Builder S) (change : S → S) : Builder S := ⟨change b.settings, b.state.configure⟩

/-- Runs a builder of a given name, once. -/
def execute (name : String) (run : S → QueryM σ α) (b : Builder S) (s : σ) :
    (Except QueryError α × Builder S) × σ :=
  match b.state with
  | .executed => ((.error (.alreadyExecuted name), b), s)
  | _ =>
    let (result, s) := (run b.settings).run s
    ((result, { b with state := .executed }), s)

end Builder

end TypedTables

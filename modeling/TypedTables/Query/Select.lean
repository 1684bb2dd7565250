import TypedTables.Mapping
import TypedTables.Query.Builder
/-!
# TypedTables — selecting

A select builder asks for rows of a model's table. Conditions, grouping and
limit keep what was set last; joins and ordering terms add up. A content
store is never asked for what it cannot express. Rows are mapped one at a
time, so a row that cannot be mapped does not hide those before it.
-/

namespace TypedTables

/-- What a select builder can be set to. -/
structure Select where
  filter : Option Clause := none
  joins : List Join := []
  groupBy : List String := []
  having : Option Clause := none
  orderBy : List OrderTerm := []
  limit : Option Limit := none

/-- Mapped rows, of which each is read when it is asked for. -/
structure Results (α : Type) where
  mapping : Mapping α
  cursor : Cursor

namespace Results

variable {α : Type}

/-- How many rows are not mapped yet. -/
def remaining (r : Results α) : Nat := r.cursor.remaining

/-- Maps the next row, if there is one. -/
def next? (r : Results α) : Option (Except MappingError α × Results α) :=
  match r.cursor.next? with
  | some (row, rest) => some (r.mapping.ofRow row, { r with cursor := rest })
  | none => none

/-- What each row maps to. -/
def toList (r : Results α) : List (Except MappingError α) := r.cursor.toRows.map r.mapping.ofRow

/-- All rows mapped, or the fault of the first one that cannot be. -/
def all (r : Results α) : Except MappingError (List α) := r.cursor.toRows.mapM r.mapping.ofRow

/-- The first row mapped, if there is one. -/
def first? (r : Results α) : Except MappingError (Option α) :=
  match r.next? with
  | some (x, _) => x.map some
  | none => .ok none

end Results

/-- A setting of a select builder. -/
inductive SelectSetting
  | filter (clause : Clause)
  | join (join : Join)
  | groupBy (columns : List String)
  | having (clause : Clause)
  | orderBy (term : OrderTerm)
  | limit (limit : Limit)

namespace Select

variable {α σ : Type}

/-- The settings with one more made. -/
def set : SelectSetting → Select → Select
  | .filter clause, s => { s with filter := some clause }
  | .join join, s => { s with joins := s.joins ++ [join] }
  | .groupBy columns, s => { s with groupBy := columns }
  | .having clause, s => { s with having := some clause }
  | .orderBy term, s => { s with orderBy := s.orderBy ++ [term] }
  | .limit limit, s => { s with limit := some limit }

/-- The request for the rows of a model: joins are compiled first, then the
condition on rows, then the one on groups. -/
def request (m : Mapping α) (s : Select) : Except ClauseError SelectRequest := do
  let joins ← Join.compileAll s.joins
  let selection ← Clause.compileOption s.filter
  let having ← Clause.compileOption s.having
  return {
    table := m.table
    columns := m.columns
    selection, joins, having
    groupBy := s.groupBy
    orderBy := s.orderBy
    limit := s.limit }

/-- Refuses a feature that a store of the kind does not have. -/
def requireLocal (kind : ProviderKind) : Option Feature → Except QueryError Unit
  | none => .ok ()
  | some feature =>
    match kind with
    | .local => .ok ()
    | .content => .error (.unsupported feature)

/-- The rows of the select. -/
def query (m : Mapping α) (store : Storage σ) (s : Select) : QueryM σ (Results α) := do
  let request ← QueryM.ofClause (s.request m)
  ExceptT.mk (pure (requireLocal store.kind request.localFeature?))
  let cursor ← QueryM.ofStore (store.select request)
  return ⟨m, cursor⟩

/-- All rows of the select, mapped. -/
def queryAll (m : Mapping α) (store : Storage σ) (s : Select) : QueryM σ (List α) := do
  let results ← s.query m store
  QueryM.ofMapping results.all

/-- A select for one row: a local store is asked for no more than that. -/
def single (kind : ProviderKind) (s : Select) : Select :=
  match s.limit, kind with
  | none, .local => { s with limit := some { count := 1 } }
  | _, _ => s

/-- The first row of the select, mapped. -/
def querySingle (m : Mapping α) (store : Storage σ) (s : Select) : QueryM σ (Option α) := do
  let results ← (s.single store.kind).query m store
  QueryM.ofMapping results.first?

/-- The name of the builder in messages. -/
def builderName : String := "select"

end Select

end TypedTables

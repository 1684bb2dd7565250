import TypedTables.Storage
import TypedTables.Text.Lower
/-!
# TypedTables — content stores

A content store addresses each table by a resource locator under its
authority and knows projection, selection and ordering. Joins, grouping,
limits and raw SQL are refused before the resolver behind it is asked.
-/

namespace TypedTables

/-- What a resolver is asked for. -/
structure ContentQuery where
  uri : String
  projection : List String
  /-- The condition on rows, where there is one. -/
  selection : Option String
  args : List Value
  sortOrder : Option String
deriving Repr, DecidableEq

/-- The transport behind a content store. -/
structure Resolver (σ : Type) where
  query : ContentQuery → StoreM σ Cursor
  bulkInsert : (uri : String) → List Values → StoreM σ Nat
  update : (uri : String) → Values → (selection : Option String) → List Value → StoreM σ Nat
  delete : (uri : String) → (selection : Option String) → List Value → StoreM σ Nat

/-- A content store without its transport. -/
structure ContentStore where
  authority : String
  count : CountStrategy := .projection
deriving Repr, DecidableEq

namespace ContentStore

/-- The column that holds the number of rows. -/
def countColumn : String := "_count"

/-- The store of a provider, if it is a content store with an authority. -/
def ofProvider? (p : Provider) : Option ContentStore :=
  match p.kind with
  | .local => none
  | .content => p.authority.map fun authority => ⟨authority, p.count⟩

/-- The resource locator of a table. Its first letter is in lower case. -/
def uri (s : ContentStore) (table : String) : String :=
  "content://" ++ s.authority ++ "/" ++ Text.lowerFirst table

/-- A compiled condition as a resolver takes it: no text for no condition. -/
def selectionText (selection : Sql) : Option String :=
  if selection.isEmpty then none else some selection.text

/-- The arguments that go with the text of a condition. -/
def selectionArgs (selection : Sql) : List Value :=
  if selection.isEmpty then [] else selection.args

/-- What the resolver is asked for a request. -/
def queryOf (s : ContentStore) (r : SelectRequest) : ContentQuery :=
  { uri := s.uri r.table
    projection := r.columns
    selection := selectionText r.selection
    args := selectionArgs r.selection
    sortOrder := OrderTerm.listSql? r.orderBy }

/-- The projection that asks for the number of rows. -/
def countProjection : CountStrategy → String
  | .projection => "COUNT(*)"
  | .countColumn => countColumn

/-- What the resolver is asked for the number of rows of a selection. -/
def countQuery (s : ContentStore) (table : String) (selection : Sql) : ContentQuery :=
  { uri := s.uri table
    projection := [countProjection s.count]
    selection := selectionText selection
    args := selectionArgs selection
    sortOrder := none }

/-- The number in the first cell of the first row of an answer. -/
def readCount (uri : String) (answer : Cursor) : Except StorageError Nat :=
  let failure (what : String) : Except StorageError Nat :=
    .error (.failure ("count on " ++ uri ++ " returned " ++ what))
  match answer.rows with
  | [] => failure "no rows"
  | row :: _ =>
    match row with
    | .integer n :: _ =>
      if 0 ≤ n.toInt then .ok n.toInt.toNat else failure (toString n.toInt)
    | v :: _ => failure ("a " ++ v.storageClass.name ++ " value")
    | [] => failure "a missing value"

variable {σ : Type}

def select (s : ContentStore) (resolver : Resolver σ) (r : SelectRequest) : StoreM σ Cursor :=
  match r.localFeature? with
  | some feature => throw (.unsupported feature)
  | none => resolver.query (s.queryOf r)

def countRows (s : ContentStore) (resolver : Resolver σ) (table : String) (selection : Sql) :
    StoreM σ Nat := do
  let answer ← resolver.query (s.countQuery table selection)
  ExceptT.mk (pure (readCount (s.uri table) answer))

/-- The store over a resolver. What to do with conflicting rows is left to
the resolver. -/
def storage (s : ContentStore) (resolver : Resolver σ) : Storage σ :=
  { kind := .content
    select := s.select resolver
    insert := fun table rows _ => resolver.bulkInsert (s.uri table) rows
    update := fun table values selection =>
      resolver.update (s.uri table) values (selectionText selection) (selectionArgs selection)
    delete := fun table selection =>
      resolver.delete (s.uri table) (selectionText selection) (selectionArgs selection)
    count := s.countRows resolver
    raw := fun _ => throw (.unsupported .rawQuery) }

end ContentStore

end TypedTables

/-!
# TypedTables — providers

A provider is the store that a group of models is bound to: a local
database, or a content store that is addressed by resource locators under
an authority.
-/

namespace TypedTables

inductive ProviderKind
  /-- A local database: joins, grouping, limits and raw SQL are available. -/
  | local
  /-- A content store: rows of one table, selected and ordered. -/
  | content
deriving Repr, DecidableEq

namespace ProviderKind

def name : ProviderKind → String
  | .local => "local"
  | .content => "content"

def all : List ProviderKind := [.local, .content]

def ofName? (s : String) : Option ProviderKind := all.find? fun k => k.name == s

end ProviderKind

/-- How a content store is asked for the number of rows. -/
inductive CountStrategy
  /-- By the projection `COUNT(*)`. -/
  | projection
  /-- By a column that holds the count. -/
  | countColumn
deriving Repr, DecidableEq

namespace CountStrategy

def name : CountStrategy → String
  | .projection => "projection"
  | .countColumn => "count_column"

def all : List CountStrategy := [.projection, .countColumn]

def ofName? (s : String) : Option CountStrategy := all.find? fun k => k.name == s

end CountStrategy

/-- A provider with its kind resolved. -/
structure Provider where
  name : String
  kind : ProviderKind
  authority : Option String := none
  count : CountStrategy := .projection
deriving Repr, DecidableEq

end TypedTables

/-!
# TypedTables — semantic types

What a stored field means, apart from the type it is declared with, and the
affinity of the column that keeps it.
-/

namespace TypedTables

/-- The column types of a table. -/
inductive Affinity
  | integer
  | real
  | text
  | blob
deriving Repr, DecidableEq

/-- The affinity as a column type in SQL. -/
def Affinity.sql : Affinity → String
  | .integer => "INTEGER"
  | .real => "REAL"
  | .text => "TEXT"
  | .blob => "BLOB"

inductive SemanticType
  | integer
  | long
  | real
  | text
  | boolean
  | blob
  | uri
deriving Repr, DecidableEq

namespace SemanticType

def name : SemanticType → String
  | .integer => "integer"
  | .long => "long"
  | .real => "real"
  | .text => "text"
  | .boolean => "boolean"
  | .blob => "blob"
  | .uri => "uri"

def all : List SemanticType := [.integer, .long, .real, .text, .boolean, .blob, .uri]

/-- The semantic type of a given name. -/
def ofName? (s : String) : Option SemanticType := all.find? fun t => t.name == s

/-- The column that keeps values of the type. -/
def affinity : SemanticType → Affinity
  | .integer | .long | .boolean => .integer
  | .real => .real
  | .text | .uri => .text
  | .blob => .blob

/-- Whether the database can number fields of the type. -/
def isIntegral : SemanticType → Bool
  | .integer | .long => true
  | _ => false

end SemanticType

end TypedTables

import TypedTables.Document.Json.Printer
import TypedTables.Document.Yaml.Printer
import TypedTables.Registry.Written
/-!
# TypedTables — showing a registry

A registry for readers: as JSON, as YAML, or as a table with one line a
column, in which each provider is followed by its models.
-/

namespace TypedTables

/-- The ways to show a registry. -/
inductive ListingFormat
  | json
  | yaml
  | table
deriving Repr, DecidableEq

namespace ListingFormat

def name : ListingFormat → String
  | .json => "json"
  | .yaml => "yaml"
  | .table => "table"

def all : List ListingFormat := [.json, .yaml, .table]

def ofName? (s : String) : Option ListingFormat := all.find? fun f => f.name == s

end ListingFormat

namespace Listing

/-- A text filled up with blanks to a number of characters. -/
def padded (width : Nat) (s : String) : String :=
  s ++ String.ofList (List.replicate (width - s.length) ' ')

/-- The marks of a field. -/
def marks (f : Field) : List String :=
  (if f.isPrimaryKey then ["pk"] else []) ++ (if f.isAutoIncrement then ["autoincrement"] else []) ++
    (if f.isNotNull then ["not null"] else []) ++ (if f.isUnique then ["unique"] else []) ++
    if f.isIndexed then ["index"] else []

def fieldLine (f : Field) : String :=
  "    " ++ padded 20 f.columnName ++ " " ++ padded 8 f.semanticType.name ++ " " ++
    String.intercalate ", " (marks f)

def foreignKeyLine (fk : ForeignKey) : String :=
  "    FK " ++ fk.localColumn ++ " -> " ++ fk.targetTable ++ "(" ++ fk.targetColumn ++ ")"

def modelLines (m : Model) : List String :=
  ("  " ++ m.name ++ " -> " ++ m.tableName) :: m.fields.map fieldLine ++
    m.foreignKeys.map foreignKeyLine

def providerLine (p : Provider) : String :=
  "Provider: " ++ p.name ++ "  Kind: " ++ p.kind.name ++
    match p.authority with
    | some authority => "  Authority: " ++ authority
    | none => ""

/-- The lines of a registry. -/
def lines (r : Registry) : List String :=
  r.providers.values.flatMap fun p => providerLine p :: (r.modelsOf p.name).flatMap modelLines

end Listing

/-- A registry in a format. -/
def Registry.listing (r : Registry) : ListingFormat → String
  | .json => Json.pretty r.toDocument
  | .yaml => Yaml.print r.toDocument
  | .table => String.join ((Listing.lines r).map (· ++ "\n"))

end TypedTables

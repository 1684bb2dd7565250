import TypedTables.Schema.SemanticType
/-!
# TypedTables — extraction errors

Every way in which declarations can be malformed or ambiguous. Each error
names the model or the provider it was found in.
-/

namespace TypedTables

/-- What is declared. -/
inductive DeclarationKind
  | provider
  | model
deriving Repr, DecidableEq

def DeclarationKind.name : DeclarationKind → String
  | .provider => "provider"
  | .model => "model"

inductive ExtractionError
  | emptyName (kind : DeclarationKind)
  /-- A name that has to be an identifier and is not. -/
  | invalidIdentifier (model identifier : String)
  /-- A name that the generated language keeps for itself. -/
  | reservedName (model name : String)
  | invalidPackage (model package : String)
  | invalidProviderName (provider : String)
  /-- Two names that fold to one in the generated sources. -/
  | nameCollision (kind : DeclarationKind) (first second generated : String)
  | duplicateProvider (provider : String)
  | unknownProviderParent (provider parent : String)
  | providerCycle (provider : String)
  | missingAuthority (provider : String)
  | duplicateModel (model : String)
  | unknownParentModel (model parent : String)
  | inheritanceCycle (model : String)
  | missingProvider (model : String)
  | unknownProvider (model provider : String)
  | missingPackage (model : String)
  | duplicateMember (model member : String)
  | duplicateColumn (model column : String)
  | missingType (model field : String)
  | unsupportedType (model field type : String)
  /-- Bytes that are declared as anything but a blob. -/
  | blobMismatch (model field : String) (semanticType : SemanticType)
  | noPrimaryKey (model : String)
  | multiplePrimaryKeys (model : String) (fields : List String)
  | autoIncrementWithoutPrimaryKey (model field : String)
  | autoIncrementNotInteger (model field : String)
  | defaultTypeMismatch (model field : String)
  | unknownForeignKeyColumn (model column : String)
  | unresolvedForeignKey (model table : String)
  | unknownForeignKeyTarget (model table column : String)
  | unknownUniqueColumn (model column : String)
  | duplicateTable (provider table : String)
deriving Repr, DecidableEq

namespace ExtractionError

/-- How a message about a model begins. -/
def inModel (model : String) : String := "model '" ++ model ++ "'"

/-- How a message about a field of a model begins. -/
def inField (model what field : String) : String :=
  inModel model ++ ": " ++ what ++ " '" ++ field ++ "'"

def message : ExtractionError → String
  | emptyName kind => kind.name ++ " declaration has an empty name"
  | invalidIdentifier model identifier =>
    inModel model ++ ": '" ++ identifier ++ "' is not a valid SQL identifier"
  | reservedName model name =>
    inModel model ++ ": '" ++ name ++ "' is reserved and cannot be used as a Rust name"
  | invalidPackage model package =>
    inField model "package" package ++ " is not a Rust module path"
  | invalidProviderName provider =>
    "provider name '" ++ provider ++ "' is not a valid identifier"
  | nameCollision kind first second generated =>
    kind.name ++ "s '" ++ first ++ "' and '" ++ second ++ "' both generate '" ++ generated ++ "'"
  | duplicateProvider provider => "provider '" ++ provider ++ "' is declared more than once"
  | unknownProviderParent provider parent =>
    "provider '" ++ provider ++ "' extends unknown provider '" ++ parent ++ "'"
  | providerCycle provider => "provider '" ++ provider ++ "' has a cyclic extends chain"
  | missingAuthority provider => "content provider '" ++ provider ++ "' has no authority"
  | duplicateModel model => inModel model ++ " is declared more than once"
  | unknownParentModel model parent => inModel model ++ " extends unknown model '" ++ parent ++ "'"
  | inheritanceCycle model => inModel model ++ " has a cyclic extends chain"
  | missingProvider model => inModel model ++ " does not name a provider"
  | unknownProvider model provider =>
    inModel model ++ " is bound to unknown provider '" ++ provider ++ "'"
  | missingPackage model => inModel model ++ " does not name a package"
  | duplicateMember model member => inField model "member" member ++ " is declared more than once"
  | duplicateColumn model column => inField model "column" column ++ " is mapped more than once"
  | missingType model field => inField model "field" field ++ " has no type"
  | unsupportedType model field type =>
    inField model "field" field ++ " has unsupported type '" ++ type ++ "'"
  | blobMismatch model field semanticType =>
    inField model "byte-sequence field" field ++ " must be a blob, not " ++ semanticType.name
  | noPrimaryKey model => inModel model ++ " has no primary key"
  | multiplePrimaryKeys model fields =>
    inModel model ++ " has " ++ toString fields.length ++ " primary keys: " ++
      String.intercalate ", " fields
  | autoIncrementWithoutPrimaryKey model field =>
    inField model "auto-increment field" field ++ " is not the primary key"
  | autoIncrementNotInteger model field =>
    inField model "auto-increment field" field ++ " is not an integer"
  | defaultTypeMismatch model field =>
    inField model "default value of" field ++ " does not fit its type"
  | unknownForeignKeyColumn model column =>
    inField model "foreign key column" column ++ " is not a field"
  | unresolvedForeignKey model table =>
    inField model "foreign key targets unknown table" table
  | unknownForeignKeyTarget model table column =>
    inField model "foreign key targets unknown column" (table ++ "." ++ column)
  | unknownUniqueColumn model column =>
    inField model "unique group names unknown column" column
  | duplicateTable provider table =>
    "provider '" ++ provider ++ "' maps table '" ++ table ++ "' more than once"

/-- The name of the kind of an error. -/
def kind : ExtractionError → String
  | emptyName .. => "EmptyName"
  | invalidIdentifier .. => "InvalidIdentifier"
  | reservedName .. => "ReservedName"
  | invalidPackage .. => "InvalidPackage"
  | invalidProviderName .. => "InvalidProviderName"
  | nameCollision .. => "NameCollision"
  | duplicateProvider .. => "DuplicateProvider"
  | unknownProviderParent .. => "UnknownProviderParent"
  | providerCycle .. => "ProviderCycle"
  | missingAuthority .. => "MissingAuthority"
  | duplicateModel .. => "DuplicateModel"
  | unknownParentModel .. => "UnknownParentModel"
  | inheritanceCycle .. => "InheritanceCycle"
  | missingProvider .. => "MissingProvider"
  | unknownProvider .. => "UnknownProvider"
  | missingPackage .. => "MissingPackage"
  | duplicateMember .. => "DuplicateMember"
  | duplicateColumn .. => "DuplicateColumn"
  | missingType .. => "MissingType"
  | unsupportedType .. => "UnsupportedType"
  | blobMismatch .. => "BlobMismatch"
  | noPrimaryKey .. => "NoPrimaryKey"
  | multiplePrimaryKeys .. => "MultiplePrimaryKeys"
  | autoIncrementWithoutPrimaryKey .. => "AutoIncrementWithoutPrimaryKey"
  | autoIncrementNotInteger .. => "AutoIncrementNotInteger"
  | defaultTypeMismatch .. => "DefaultTypeMismatch"
  | unknownForeignKeyColumn .. => "UnknownForeignKeyColumn"
  | unresolvedForeignKey .. => "UnresolvedForeignKey"
  | unknownForeignKeyTarget .. => "UnknownForeignKeyTarget"
  | unknownUniqueColumn .. => "UnknownUniqueColumn"
  | duplicateTable .. => "DuplicateTable"

/-- The message for all errors that were found. -/
def listMessage (errors : List ExtractionError) : String :=
  toString errors.length ++ " extraction error(s)" ++
    String.join (errors.map fun e => "\n  - " ++ e.message)

end ExtractionError

end TypedTables

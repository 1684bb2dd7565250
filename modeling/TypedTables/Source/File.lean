import TypedTables.Digest.Sha256
import TypedTables.Document.Json.Printer
import TypedTables.Registry.Written
import TypedTables.Schema.CreationOrder
import TypedTables.Schema.Table
import TypedTables.Source.Module
/-!
# TypedTables — generated files

One file for each provider that has models. It starts with a header that
carries a digest of everything the file depends on, then come the
provider's own constants and one module for each model. The same registry
always gives the same files.
-/

namespace TypedTables

/-- A generated file. -/
structure SourceFile where
  /-- Its name below the output directory. -/
  name : String
  provider : String
  contents : String
deriving Repr, DecidableEq

namespace Source

/-- What the file of a provider depends on. -/
def fingerprintDocument (p : Provider) (models : List Model) (o : GeneratorOptions) : Document :=
  .map [("provider", p.toDocument), ("models", .list (models.map Model.toDocument)),
    ("options", o.toDocument)]

/-- The digest of what the file of a provider depends on. -/
def fingerprint (p : Provider) (models : List Model) (o : GeneratorOptions) : String :=
  Sha256.hexDigest (Json.compact (fingerprintDocument p models o))

/-- The header of a file. -/
def headerSteps (p : Provider) (models : List Model) (o : GeneratorOptions) : Code :=
  [.line ("// " ++ o.header),
    .line ("// provider: " ++ p.name ++ " (" ++ p.kind.name ++ ")"),
    .line ("// fingerprint: sha256:" ++ fingerprint p models o),
    .blank]

/-- The tables of a provider, in creation order. -/
def tableNames (models : List Model) : List String := (Model.creationOrder models).map (·.tableName)

/-- The statements for the tables of a provider, and then those for their
indexes, in the order of the tables. -/
def schemaStatements (models : List Model) (o : DdlOptions) : List String :=
  let ordered := Model.creationOrder models
  ordered.map (·.createTable o) ++ ordered.flatMap (·.createIndexes o)

/-- The constants of a provider. -/
def providerSteps (p : Provider) (models : List Model) (o : GeneratorOptions) : Code :=
  let authority : Code :=
    match p.kind, p.authority with
    | .content, some authority => [textConstant "AUTHORITY" authority]
    | _, _ => []
  [.line "/// Provider these models are bound to.", textConstant "PROVIDER" p.name] ++ authority ++
    [.line "/// Tables in creation order.",
      constant "TABLE_NAMES" "&[&str]" (literalList (tableNames models)),
      .line "/// \x60CREATE TABLE\x60 statements in creation order, then \x60CREATE INDEX\x60.",
      .line "pub const SCHEMA: &[&str] = &[", .indent] ++
    (schemaStatements models o.ddl).map (fun s => .line (Text.quoted s ++ ",")) ++ [.dedent, .line "];"]

/-- The file of a provider. -/
def fileSteps (p : Provider) (models : List Model) (o : GeneratorOptions) : Code :=
  headerSteps p models o ++ providerSteps p models o ++
    spaced (models.map fun m => .embed (renderModule m o))

/-- The file of a provider with some models. -/
def renderFile (p : Provider) (models : List Model) (o : GeneratorOptions) : SourceFile :=
  { name := Naming.fileName p.name, provider := p.name, contents := Code.text (fileSteps p models o) }

/-- The files of all providers that have models. -/
def generate (r : Registry) (o : GeneratorOptions) : List SourceFile :=
  r.providers.values.filterMap fun p =>
    match r.modelsOf p.name with
    | [] => none
    | models => some (renderFile p models o)

end Source

end TypedTables

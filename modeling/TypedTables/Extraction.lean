import TypedTables.Extraction.Model
import TypedTables.Registry
/-!
# TypedTables — extraction

Declarations in, a registry out, or else every error that is in them. Once
the models are built one by one, they are checked together: tables of one
provider differ, foreign keys point to columns that are there, and names do
not fold together in the generated sources. Everything is looked at in the
order of names, so the order of declarations does not matter.
-/

namespace TypedTables

namespace Extraction

/-- Tables that are mapped twice by one provider. -/
def tableErrors (models : List Model) : List ExtractionError :=
  (repeated (fun m => (m.provider.name, m.tableName)) [] models).map fun m =>
    .duplicateTable m.provider.name m.tableName

/-- The model of the same provider that is mapped to a table. -/
def targetOf (models : List Model) (m : Model) (fk : ForeignKey) : Option Model :=
  models.find? fun t => t.provider.name == m.provider.name && t.tableName == fk.targetTable

/-- The error of a foreign key whose target is not there. -/
def targetErrors (models : List Model) (m : Model) (fk : ForeignKey) : List ExtractionError :=
  match targetOf models m fk with
  | none => [.unresolvedForeignKey m.name fk.targetTable]
  | some target =>
    errorUnless (target.fieldByColumn? fk.targetColumn).isSome
      (.unknownForeignKeyTarget m.name fk.targetTable fk.targetColumn)

def allTargetErrors (models : List Model) : List ExtractionError :=
  models.flatMap fun m => m.foreignKeys.flatMap (targetErrors models m)

/-- The providers that models are bound to, in the order of their names. -/
def usedProviders (models : List Model) : List String :=
  (Directory.ofList (models.map fun m => (m.provider.name, ()))).names

/-- Providers whose files would be one. -/
def fileErrors (models : List Model) : List ExtractionError :=
  (collisions Naming.snakeCase [] (usedProviders models)).map fun (first, second) =>
    .nameCollision .provider first second (Naming.fileName second)

/-- Models of one provider whose modules would be one. -/
def moduleErrors (models : List Model) : List ExtractionError :=
  (collisions (fun m : Model => (m.provider.name, Naming.moduleName m.name)) [] models).map
    fun (first, second) =>
      .nameCollision .model first.name second.name (Naming.moduleName second.name)

/-- What is found in declarations: the resolved providers and the models. -/
def findings (d : Declarations) : Findings (List Provider × List Model) :=
  let declaredProviders := providerDirectory d.providers
  let declaredModels := modelDirectory d.models
  let providers := resolveProviders declaredProviders
  let models := buildModels ⟨declaredProviders, declaredModels, providers.result⟩
  { errors :=
      providerNameErrors [] d.providers ++ modelNameErrors [] d.models ++ providers.errors ++
        models.errors ++ tableErrors models.result ++ allTargetErrors models.result ++
        fileErrors models.result ++ moduleErrors models.result
    result := (providers.result, models.result) }

/-- The registry of providers and models. -/
def register (providers : List Provider) (models : List Model) : Registry :=
  models.foldl Registry.insertModel (providers.foldl Registry.insertProvider .empty)

end Extraction

/-- Extracts the registry from declarations, or all the errors in them. -/
def extract (d : Declarations) : Except (List ExtractionError) Registry :=
  let found := Extraction.findings d
  match found.errors with
  | [] => .ok (Extraction.register found.result.1 found.result.2)
  | errors => .error errors

end TypedTables

import TypedTables.Extraction.Field
import TypedTables.Extraction.Provider
/-!
# TypedTables — extracting models

A model is built from its lineage: itself and the models it extends, the
nearest first. Members, foreign keys and unique groups are taken over from
the remotest ancestor on; the package and the provider are those of the
nearest model that states one; the table is its own and is never taken over.
-/

namespace TypedTables

namespace Extraction

/-- Errors in the names of declared models, of which only emptiness and
repetition matter here. -/
def modelNameErrors (seen : List String) : List ModelDeclaration → List ExtractionError
  | [] => []
  | m :: ms =>
    if Text.allBlank m.name then .emptyName .model :: modelNameErrors seen ms
    else if seen.contains m.name then .duplicateModel m.name :: modelNameErrors seen ms
    else modelNameErrors (m.name :: seen) ms

/-- The declared models by name. -/
def modelDirectory (ms : List ModelDeclaration) : Directory ModelDeclaration :=
  .ofList ((ms.filter fun m => !Text.allBlank m.name).map fun m => (m.name, m))

def modelKinship (declared : Directory ModelDeclaration) : Ancestry.Kinship ModelDeclaration :=
  { find? := declared.find?, name := (·.name), parent? := (·.parent) }

/-- A model and its ancestors, the nearest first. -/
def lineage (declared : Directory ModelDeclaration) (m : ModelDeclaration) :
    Except ExtractionError (List ModelDeclaration) :=
  match Ancestry.of (modelKinship declared) declared.size m with
  | .cyclic => .error (.inheritanceCycle m.name)
  | .broken last parent => .error (.unknownParentModel last.name parent)
  | .complete chain => .ok chain

/-- What is declared besides the model that is built. -/
structure Context where
  declaredProviders : Directory ProviderDeclaration
  declaredModels : Directory ModelDeclaration
  /-- The providers that could be resolved, under their names. -/
  providers : List Provider

/-- A resolved provider. -/
def Context.provider? (c : Context) (name : String) : Option Provider :=
  c.providers.find? (·.name == name)

/-- The package of a model. -/
def packageErrors (model : String) : Option String → List ExtractionError
  | none => [.missingPackage model]
  | some path => errorUnless (Naming.isModulePath path) (.invalidPackage model path)

/-- The provider of a model. One that is declared but could not be resolved
is no further error. -/
def findProvider (c : Context) (model : String) : Option String → Findings (Option Provider)
  | none => .fail (.missingProvider model)
  | some name =>
    match c.provider? name with
    | some p => .clean (some p)
    | none => ⟨errorUnless (c.declaredProviders.contains name) (.unknownProvider model name), none⟩

/-- What one member adds to the fields, and the errors in it. -/
def buildMember (model : String) (member : MemberDeclaration) : Findings (Option Field) :=
  let nameErrors :=
    if member.isHook || member.field.isSome then sourceNameErrors model member.name true else []
  match member.field with
  | none => ⟨nameErrors, none⟩
  | some attributes =>
    let field := buildField model member attributes
    ⟨nameErrors ++ field.errors, field.result⟩

/-- The fields of the members of a lineage. A member whose name was used
before is only reported. -/
def buildMembers (model : String) (seen : List String) :
    List MemberDeclaration → Findings (List Field)
  | [] => .clean []
  | member :: members =>
    if seen.contains member.name then
      let rest := buildMembers model seen members
      ⟨.duplicateMember model member.name :: rest.errors, rest.result⟩
    else
      let one := buildMember model member
      let rest := buildMembers model (member.name :: seen) members
      ⟨one.errors ++ rest.errors, one.result.toList ++ rest.result⟩

/-- The hooks of the members of a lineage. -/
def hooksOf (members : List MemberDeclaration) : List String :=
  ((firsts (·.name) [] members).filter (·.isHook)).map (·.name)

def columnErrors (model : String) (fields : List Field) : List ExtractionError :=
  (repeated (·.columnName) [] fields).map fun f => .duplicateColumn model f.columnName

/-- A model has exactly one key. -/
def keyErrors (model : String) (fields : List Field) : List ExtractionError :=
  match (fields.filter (·.isPrimaryKey)).map (·.name) with
  | [] => [.noPrimaryKey model]
  | [_] => []
  | keys => [.multiplePrimaryKeys model keys]

def uniqueGroupErrors (model : String) (columns : List String) (groups : List (List String)) :
    List ExtractionError :=
  groups.flatten.flatMap fun c => errorUnless (columns.contains c) (.unknownUniqueColumn model c)

/-- Errors in a foreign key by itself; its target is looked for later. -/
def foreignKeyErrors (model : String) (columns : List String) (fk : ForeignKey) :
    List ExtractionError :=
  errorUnless (columns.contains fk.localColumn) (.unknownForeignKeyColumn model fk.localColumn) ++
    identifierErrors model fk.targetTable ++ identifierErrors model fk.targetColumn

/-- The table of a model. -/
def tableOf (m : ModelDeclaration) : String := m.table.getD m.name

/-- Builds a model with its lineage. -/
def buildFromLineage (c : Context) (m : ModelDeclaration) (chain : List ModelDeclaration) :
    Findings (Option Model) :=
  let ancestorsFirst := chain.reverse
  let package := chain.findSome? (·.packagePath)
  let provider := findProvider c m.name (chain.findSome? (·.provider))
  let members := ancestorsFirst.flatMap (·.members)
  let fields := buildMembers m.name [] members
  let columns := fields.result.map (·.columnName)
  let uniqueGroups := ancestorsFirst.flatMap (·.uniqueGroups)
  let foreignKeys := ancestorsFirst.flatMap (·.foreignKeys)
  let errors :=
    sourceNameErrors m.name m.name false ++ packageErrors m.name package ++ provider.errors ++
      (m.table.map (identifierErrors m.name)).getD [] ++ fields.errors ++
      columnErrors m.name fields.result ++ keyErrors m.name fields.result ++
      uniqueGroupErrors m.name columns uniqueGroups ++
      foreignKeys.flatMap (foreignKeyErrors m.name columns)
  let result :=
    match errors, provider.result, package with
    | [], some provider, some packagePath =>
      some {
        name := m.name
        tableName := tableOf m
        packagePath
        fields := fields.result
        foreignKeys, uniqueGroups, provider
        initHooks := hooksOf members : Model }
    | _, _, _ => none
  ⟨errors, result⟩

/-- Builds a declared model. -/
def buildModel (c : Context) (m : ModelDeclaration) : Findings (Option Model) :=
  match lineage c.declaredModels m with
  | .error e => .fail e
  | .ok chain => buildFromLineage c m chain

/-- Builds all models that are not abstract, in the order of their names. -/
def buildModels (c : Context) : Findings (List Model) :=
  .collectSome (buildModel c) (c.declaredModels.values.filter (!·.isAbstract))

end Extraction

end TypedTables

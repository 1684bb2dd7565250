import TypedTables.Registry.Directory
import TypedTables.Schema.Model
/-!
# TypedTables — the registry

All models and providers of a project, by name. Whatever needs the table or
the provider of a model asks the registry for it.
-/

namespace TypedTables

structure Registry where
  providers : Directory Provider := .empty
  models : Directory Model := .empty
deriving Repr, DecidableEq, Inhabited

namespace Registry

def empty : Registry := {}

/-- Registers a provider under its name. -/
def insertProvider (r : Registry) (p : Provider) : Registry :=
  { r with providers := r.providers.insert p.name p }

/-- Registers a model under its name, and its provider if none of that name
is known yet. -/
def insertModel (r : Registry) (m : Model) : Registry :=
  { providers :=
      if r.providers.contains m.provider.name then r.providers
      else r.providers.insert m.provider.name m.provider
    models := r.models.insert m.name m }

/-- Registers a provider like `insertProvider` and answers the one that it
replaces. -/
def exchangeProvider (r : Registry) (p : Provider) : Option Provider × Registry :=
  let (replaced, providers) := r.providers.exchange p.name p
  (replaced, { r with providers := providers })

/-- Registers a model like `insertModel` and answers the one that it replaces. -/
def exchangeModel (r : Registry) (m : Model) : Option Model × Registry :=
  let providers :=
    if r.providers.contains m.provider.name then r.providers
    else r.providers.insert m.provider.name m.provider
  let (replaced, models) := r.models.exchange m.name m
  (replaced, { providers := providers, models := models })

def provider? (r : Registry) (name : String) : Option Provider := r.providers.find? name

def model? (r : Registry) (name : String) : Option Model := r.models.find? name

/-- The provider that a model is bound to, as the model has it. -/
def providerOfModel? (r : Registry) (model : String) : Option Provider :=
  (r.model? model).map (·.provider)

/-- The first model, by name, that is mapped to a table of a provider. -/
def modelForTable? (r : Registry) (provider table : String) : Option Model :=
  r.models.values.find? fun m => m.provider.name == provider && m.tableName == table

/-- The models bound to a provider, by name. -/
def modelsOf (r : Registry) (provider : String) : List Model :=
  r.models.values.filter (·.provider.name == provider)

/-- The number of models. -/
def size (r : Registry) : Nat := r.models.size

end Registry

end TypedTables

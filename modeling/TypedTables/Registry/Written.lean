import TypedTables.Registry
import TypedTables.Schema.Written
/-!
# TypedTables — the written form of a registry

Providers and models under their names. Names are read as they are given,
also where an entry has another name of its own.
-/

namespace TypedTables

namespace Registry

def toDocument (r : Registry) : Document :=
  .map
    [("providers", .map (r.providers.entries.map fun (name, p) => (name, p.toDocument))),
      ("models", .map (r.models.entries.map fun (name, m) => (name, m.toDocument)))]

def decoder : Decoder Registry :=
  .record ["providers", "models"] false fun m => do
    return {
      providers := .ofList (← m.required "providers" (.pairs Provider.decoder))
      models := .ofList (← m.required "models" (.pairs Model.decoder)) }

end Registry

end TypedTables

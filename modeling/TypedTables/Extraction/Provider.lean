import TypedTables.Declaration
import TypedTables.Extraction.Ancestry
import TypedTables.Extraction.Findings
import TypedTables.Registry.Directory
import TypedTables.Schema.Identifier
import TypedTables.Text.Blank
/-!
# TypedTables — resolving providers

A provider is of the kind of the root that its ancestry ends in. A content
store takes its authority and its way of counting from the nearest provider
of the ancestry that states one; a local database has neither.
-/

namespace TypedTables

namespace Extraction

/-- Errors in the names of declared providers. Of errors in one name only the
first is reported, and a name is checked where it occurs first. -/
def providerNameErrors (seen : List String) : List ProviderDeclaration → List ExtractionError
  | [] => []
  | p :: ps =>
    if Text.allBlank p.name then .emptyName .provider :: providerNameErrors seen ps
    else if seen.contains p.name then .duplicateProvider p.name :: providerNameErrors seen ps
    else
      errorUnless (Identifier.isValid p.name) (.invalidProviderName p.name) ++
        providerNameErrors (p.name :: seen) ps

/-- The declared providers by name. -/
def providerDirectory (ps : List ProviderDeclaration) : Directory ProviderDeclaration :=
  .ofList ((ps.filter fun p => !Text.allBlank p.name).map fun p => (p.name, p))

def providerKinship (declared : Directory ProviderDeclaration) :
    Ancestry.Kinship ProviderDeclaration :=
  { find? := declared.find?
    name := (·.name)
    parent? := fun p => if (ProviderKind.ofRoot? p.parent).isSome then none else some p.parent }

/-- The root that a chain of providers ends in. -/
def rootOf (chain : List ProviderDeclaration) : Option ProviderKind :=
  chain.getLast?.bind fun p => ProviderKind.ofRoot? p.parent

/-- The provider with a complete ancestry, nearest first. -/
def bindProvider (name : String) (chain : List ProviderDeclaration) : Except ExtractionError Provider :=
  match rootOf chain with
  | some .content =>
    match chain.findSome? (·.authority) with
    | none => .error (.missingAuthority name)
    | some authority =>
      .ok { name, kind := .content, authority := some authority,
            count := (chain.findSome? (·.count)).getD .projection }
  | _ => .ok { name, kind := .local }

/-- Resolves a declared provider. -/
def resolveProvider (declared : Directory ProviderDeclaration) (p : ProviderDeclaration) :
    Except ExtractionError Provider :=
  match Ancestry.of (providerKinship declared) declared.size p with
  | .cyclic => .error (.providerCycle p.name)
  | .broken last parent => .error (.unknownProviderParent last.name parent)
  | .complete chain => bindProvider p.name chain

/-- Resolves all declared providers, in the order of their names. -/
def resolveProviders (declared : Directory ProviderDeclaration) : Findings (List Provider) :=
  .collectSome (fun p => .ofExcept (resolveProvider declared p)) declared.values

end Extraction

end TypedTables

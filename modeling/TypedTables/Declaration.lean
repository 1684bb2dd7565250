import TypedTables.Schema.Model
/-!
# TypedTables — declarations

What a project declares: providers, each extending another one or one of
two roots, and models with their members. A model may extend another one,
whose members it takes over. A member is a stored field if it has field
attributes, and a hook if it says so; it may also be neither.
-/

namespace TypedTables

structure ProviderDeclaration where
  name : String
  /-- The provider it extends. -/
  parent : String
  authority : Option String := none
  count : Option CountStrategy := none
deriving Repr, DecidableEq

/-- What makes a member a stored field. -/
structure FieldAttributes where
  isPrimaryKey : Bool := false
  isAutoIncrement : Bool := false
  isIndexed : Bool := false
  isUnique : Bool := false
  isNotNull : Bool := false
  defaultValue : Option DefaultValue := none
  /-- The column, if it is not called like the member. -/
  column : Option String := none
  /-- The semantic type, if the declared one does not decide it. -/
  semanticType : Option SemanticType := none
deriving Repr, DecidableEq

structure MemberDeclaration where
  name : String
  declaredType : Option String := none
  field : Option FieldAttributes := none
  /-- Whether it is a method that runs after a row is mapped. -/
  isHook : Bool := false
deriving Repr, DecidableEq

structure ModelDeclaration where
  name : String
  packagePath : Option String := none
  table : Option String := none
  provider : Option String := none
  /-- The model it extends. -/
  parent : Option String := none
  /-- Whether it is there only to be extended. -/
  isAbstract : Bool := false
  foreignKeys : List ForeignKey := []
  uniqueGroups : List (List String) := []
  members : List MemberDeclaration := []
deriving Repr, DecidableEq

/-- The declarations of a project. -/
structure Declarations where
  providers : List ProviderDeclaration := []
  models : List ModelDeclaration := []
deriving Repr, DecidableEq

namespace Declarations

/-- The declarations of two texts, one after the other. Whatever is declared
twice is found later. -/
def merge (a b : Declarations) : Declarations :=
  ⟨a.providers ++ b.providers, a.models ++ b.models⟩

def mergeAll (ds : List Declarations) : Declarations := ds.foldl merge {}

end Declarations

/-- The root of local databases. -/
def ProviderKind.localRoot : String := "LocalDatabaseProvider"

/-- The root of content stores. -/
def ProviderKind.contentRoot : String := "ContentDatabaseProvider"

/-- The kind of provider that a root stands for. -/
def ProviderKind.ofRoot? (name : String) : Option ProviderKind :=
  if name == localRoot then some .local
  else if name == contentRoot then some .content
  else none

end TypedTables

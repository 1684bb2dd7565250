import TypedTables.Declaration
import TypedTables.Schema.Written
/-!
# TypedTables — the written form of declarations

How declarations are read from documents. Unlike the forms that are also
written, these refuse members they do not know, so that a misspelt key does
not pass unnoticed.
-/

namespace TypedTables

def ProviderDeclaration.decoder : Decoder ProviderDeclaration :=
  .record ["name", "extends", "authority", "count"] true fun m => do
    return {
      name := ← m.required "name" .text
      parent := ← m.required "extends" .text
      authority := ← m.withDefault "authority" none (.optional .text)
      count := ← m.withDefault "count" none (.optional (.named CountStrategy.ofName?)) }

def FieldAttributes.decoder : Decoder FieldAttributes :=
  .record ["primary_key", "auto_increment", "index", "unique", "not_null", "default", "column",
    "semantic"] true fun m => do
    return {
      isPrimaryKey := ← m.withDefault "primary_key" false .bool
      isAutoIncrement := ← m.withDefault "auto_increment" false .bool
      isIndexed := ← m.withDefault "index" false .bool
      isUnique := ← m.withDefault "unique" false .bool
      isNotNull := ← m.withDefault "not_null" false .bool
      defaultValue := ← m.withDefault "default" none (.optional DefaultValue.decoder)
      column := ← m.withDefault "column" none (.optional .text)
      semanticType := ← m.withDefault "semantic" none (.optional (.named SemanticType.ofName?)) }

def MemberDeclaration.decoder : Decoder MemberDeclaration :=
  .record ["name", "type", "field", "init"] true fun m => do
    return {
      name := ← m.required "name" .text
      declaredType := ← m.withDefault "type" none (.optional .text)
      field := ← m.withDefault "field" none (.optional FieldAttributes.decoder)
      isHook := ← m.withDefault "init" false .bool }

def ModelDeclaration.decoder : Decoder ModelDeclaration :=
  .record ["name", "package", "table", "provider", "extends", "abstract", "foreign_keys", "unique",
    "members"] true fun m => do
    return {
      name := ← m.required "name" .text
      packagePath := ← m.withDefault "package" none (.optional .text)
      table := ← m.withDefault "table" none (.optional .text)
      provider := ← m.withDefault "provider" none (.optional .text)
      parent := ← m.withDefault "extends" none (.optional .text)
      isAbstract := ← m.withDefault "abstract" false .bool
      foreignKeys := ← m.withDefault "foreign_keys" [] (.list (ForeignKey.decoderWith true))
      uniqueGroups := ← m.withDefault "unique" [] (.list (.list .text))
      members := ← m.withDefault "members" [] (.list MemberDeclaration.decoder) }

def Declarations.decoder : Decoder Declarations :=
  .record ["providers", "models"] true fun m => do
    return {
      providers := ← m.withDefault "providers" [] (.list ProviderDeclaration.decoder)
      models := ← m.withDefault "models" [] (.list ModelDeclaration.decoder) }

end TypedTables

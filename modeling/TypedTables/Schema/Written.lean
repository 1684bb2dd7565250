import TypedTables.Document.Decoder
import TypedTables.Schema.Table
import TypedTables.Sql.Ordering
import TypedTables.Value
/-!
# TypedTables — the written form of a schema

How providers, models and the options that go with them are written as
documents and read back. Members stand in a fixed order. An authority or a
default that is absent is left out; every other member is written. A reader
takes a missing flag as false and ignores members it does not know.
-/

namespace TypedTables

namespace Document

def ofTexts (texts : List String) : Document := .list (texts.map .text)

/-- A member that is only written where there is a value. -/
def optionalMember (name : String) : Option Document → List (String × Document)
  | some d => [(name, d)]
  | none => []

end Document

namespace DefaultValue

def toDocument : DefaultValue → Document
  | .bool b => .bool b
  | .integer n => .integer n.toInt
  | .real x => .real x
  | .text s => .text s

/-- A whole number: an integer where it fits one, a real otherwise. -/
def ofInteger (n : Int) : DefaultValue :=
  ((int64? n).map DefaultValue.integer).getD (.real (Double.ofInt n))

/-- A scalar whose type is known. A whole number has to fit a machine word,
signed or not. -/
def ofScalar? : Document → Option DefaultValue
  | .bool b => some (.bool b)
  | .integer n => if Int64.minValue.toInt ≤ n ∧ n < UInt64.size then some (ofInteger n) else none
  | .real x => some (.real x)
  | .text s => some (.text s)
  | _ => none

def decoder : Decoder DefaultValue
  | _, .plain s => ofScalar? (Yaml.resolve s)
  | _, .tagged tag _ s => ofScalar? (Yaml.resolveTagged tag s)
  | _, d => ofScalar? d

end DefaultValue

namespace Provider

def toDocument (p : Provider) : Document :=
  .map <|
    [("name", .text p.name), ("kind", .text p.kind.name)] ++
      Document.optionalMember "authority" (p.authority.map .text) ++
      [("count", .text p.count.name)]

def decoder : Decoder Provider :=
  .record ["name", "kind", "authority", "count"] false fun m => do
    return {
      name := ← m.required "name" .text
      kind := ← m.required "kind" (.named ProviderKind.ofName?)
      authority := ← m.withDefault "authority" none (.optional .text)
      count := ← m.withDefault "count" .projection (.named CountStrategy.ofName?) }

end Provider

namespace Field

def toDocument (f : Field) : Document :=
  .map <|
    [("name", .text f.name), ("column_name", .text f.columnName),
      ("type", .text f.semanticType.name), ("rust_type", .text f.declaredType),
      ("nullable", .bool f.nullable), ("is_primary_key", .bool f.isPrimaryKey),
      ("is_auto_increment", .bool f.isAutoIncrement), ("is_indexed", .bool f.isIndexed),
      ("is_unique", .bool f.isUnique), ("is_not_null", .bool f.isNotNull)] ++
      Document.optionalMember "default_value" (f.defaultValue.map DefaultValue.toDocument)

def decoder : Decoder Field :=
  .record ["name", "column_name", "type", "rust_type", "nullable", "is_primary_key",
    "is_auto_increment", "is_indexed", "is_unique", "is_not_null", "default_value"] false fun m => do
    return {
      name := ← m.required "name" .text
      columnName := ← m.required "column_name" .text
      semanticType := ← m.required "type" (.named SemanticType.ofName?)
      declaredType := ← m.required "rust_type" .text
      nullable := ← m.withDefault "nullable" false .bool
      isPrimaryKey := ← m.withDefault "is_primary_key" false .bool
      isAutoIncrement := ← m.withDefault "is_auto_increment" false .bool
      isIndexed := ← m.withDefault "is_indexed" false .bool
      isUnique := ← m.withDefault "is_unique" false .bool
      isNotNull := ← m.withDefault "is_not_null" false .bool
      defaultValue := ← m.withDefault "default_value" none (.optional DefaultValue.decoder) }

end Field

namespace ForeignKey

def toDocument (fk : ForeignKey) : Document :=
  .map [("local_column", .text fk.localColumn), ("target_table", .text fk.targetTable),
    ("target_column", .text fk.targetColumn)]

/-- A foreign key, closed or not to members it does not know. -/
def decoderWith (closed : Bool) : Decoder ForeignKey :=
  .record ["local_column", "target_table", "target_column"] closed fun m => do
    return {
      localColumn := ← m.required "local_column" .text
      targetTable := ← m.required "target_table" .text
      targetColumn := ← m.required "target_column" .text }

end ForeignKey

namespace Model

def toDocument (m : Model) : Document :=
  .map
    [("name", .text m.name), ("table_name", .text m.tableName),
      ("package_path", .text m.packagePath), ("fields", .list (m.fields.map Field.toDocument)),
      ("foreign_keys", .list (m.foreignKeys.map ForeignKey.toDocument)),
      ("unique_groups", .list (m.uniqueGroups.map Document.ofTexts)),
      ("provider", m.provider.toDocument), ("init_hooks", Document.ofTexts m.initHooks)]

def decoder : Decoder Model :=
  .record ["name", "table_name", "package_path", "fields", "foreign_keys", "unique_groups",
    "provider", "init_hooks"] false fun m => do
    return {
      name := ← m.required "name" .text
      tableName := ← m.required "table_name" .text
      packagePath := ← m.required "package_path" .text
      fields := ← m.required "fields" (.list Field.decoder)
      foreignKeys := ← m.withDefault "foreign_keys" [] (.list (ForeignKey.decoderWith false))
      uniqueGroups := ← m.withDefault "unique_groups" [] (.list (.list .text))
      provider := ← m.required "provider" Provider.decoder
      initHooks := ← m.withDefault "init_hooks" [] (.list .text) }

end Model

def DdlOptions.decoder : Decoder DdlOptions :=
  .record ["if_not_exists", "emit_indexes"] false fun m => do
    return {
      ifNotExists := ← m.withDefault "if_not_exists" false .bool
      emitIndexes := ← m.withDefault "emit_indexes" false .bool }

namespace Direction

def name : Direction → String
  | .ascending => "asc"
  | .descending => "desc"
  | .random => "random"

def all : List Direction := [.ascending, .descending, .random]

def ofName? (s : String) : Option Direction := all.find? fun d => d.name == s

end Direction

namespace Collation

def name : Collation → String
  | .none => "none"
  | .binary => "binary"
  | .noCase => "no_case"
  | .rTrim => "r_trim"

def all : List Collation := [.none, .binary, .noCase, .rTrim]

def ofName? (s : String) : Option Collation := all.find? fun c => c.name == s

end Collation

namespace OrderTerm

def toDocument (t : OrderTerm) : Document :=
  .map [("column", .text t.column), ("order", .text t.direction.name),
    ("collate", .text t.collation.name)]

def decoder : Decoder OrderTerm :=
  .record ["column", "order", "collate"] false fun m => do
    return {
      column := ← m.required "column" .text
      direction := ← m.required "order" (.named Direction.ofName?)
      collation := ← m.withDefault "collate" .none (.named Collation.ofName?) }

end OrderTerm

end TypedTables

import TypedTables.Declaration
import TypedTables.Extraction.Findings
import TypedTables.Source.Naming
import TypedTables.Text.Blank
import TypedTables.Value.FieldType
/-!
# TypedTables — extracting fields

A member with field attributes becomes a field. Its column is called like
the member unless the attributes say otherwise. Its semantic type is the
one of its declared type, or another one of the same affinity; a member
without a declared type gets the usual type of its semantic type.
-/

namespace TypedTables

/-- What a value of the type means by itself. -/
def ScalarType.semanticType? : ScalarType → Option SemanticType
  | .integer .i8 | .integer .i16 | .integer .i32 | .integer .u8 | .integer .u16 => some .integer
  | .integer .i64 | .integer .u32 | .integer .isize => some .long
  | .f32 | .f64 => some .real
  | .text => some .text
  | .bool => some .boolean
  | .bytes => some .blob
  | .uri => some .uri
  | .any => none

namespace SemanticType

/-- The semantic type of a declared type, without an optional wrapper. -/
def ofDeclared? (spelling : String) : Option SemanticType :=
  (ScalarType.ofDeclared? spelling).bind ScalarType.semanticType?

/-- The type that a field has where only its semantic type is declared. -/
def usualType : SemanticType → ScalarType
  | .integer => .integer .i32
  | .long => .integer .i64
  | .real => .f64
  | .text => .text
  | .boolean => .bool
  | .blob => .bytes
  | .uri => .uri

end SemanticType

namespace Extraction

/-- The types of a field. -/
structure FieldTyping where
  semanticType : SemanticType
  spelling : String
  nullable : Bool
deriving Repr, DecidableEq

/-- An error in a name that has to be an identifier. -/
def identifierErrors (model name : String) : List ExtractionError :=
  errorUnless (Identifier.isValid name) (.invalidIdentifier model name)

/-- Errors in a name that is also one in the generated sources. A keyword is
accepted where it can be written raw. -/
def sourceNameErrors (model name : String) (rawAllowed : Bool) : List ExtractionError :=
  if !Identifier.isValid name then [.invalidIdentifier model name]
  else
    errorUnless (!(Naming.isUnescapable name || (!rawAllowed && Naming.isKeyword name)))
      (.reservedName model name)

/-- The types of a field whose type is declared. Bytes are always a blob, and
every other type may be taken as one of the same affinity. -/
def typeDeclared (model field spelling : String) (chosen : Option SemanticType) :
    Except ExtractionError FieldTyping := do
  let (base, nullable) := FieldType.splitSpelling (Text.withoutBlanks spelling)
  let some declared := SemanticType.ofDeclared? base
    | throw (.unsupportedType model field spelling)
  let semanticType := chosen.getD declared
  if declared = .blob ∧ semanticType ≠ .blob then throw (.blobMismatch model field semanticType)
  if semanticType.affinity ≠ declared.affinity then
    throw (.unsupportedType model field (spelling ++ " as " ++ semanticType.name))
  return { semanticType, nullable, spelling := if nullable then FieldType.optionalName base else base }

/-- The types of a member that is a field. -/
def typeField (model : String) (member : MemberDeclaration) (attributes : FieldAttributes) :
    Except ExtractionError FieldTyping :=
  match member.declaredType, attributes.semanticType with
  | none, none => .error (.missingType model member.name)
  | none, some t => .ok { semanticType := t, spelling := t.usualType.name, nullable := false }
  | some spelling, chosen => typeDeclared model member.name spelling chosen

/-- Errors in the attributes of a field whose types are known. -/
def attributeErrors (model field : String) (attributes : FieldAttributes) (t : SemanticType) :
    List ExtractionError :=
  errorUnless (!attributes.isAutoIncrement || attributes.isPrimaryKey)
      (.autoIncrementWithoutPrimaryKey model field) ++
    errorUnless (!attributes.isAutoIncrement || t.isIntegral) (.autoIncrementNotInteger model field) ++
    errorUnless (attributes.defaultValue.all (·.fits t)) (.defaultTypeMismatch model field)

/-- The column of a member. -/
def columnOf (member : MemberDeclaration) (attributes : FieldAttributes) : String :=
  attributes.column.getD member.name

/-- The field of a member with attributes. -/
def buildField (model : String) (member : MemberDeclaration) (attributes : FieldAttributes) :
    Findings (Option Field) :=
  let column := columnOf member attributes
  let columnErrors := identifierErrors model column
  match typeField model member attributes with
  | .error e => ⟨columnErrors ++ [e], none⟩
  | .ok typing =>
    { errors := columnErrors ++ attributeErrors model member.name attributes typing.semanticType
      result := some {
        name := member.name
        columnName := column
        semanticType := typing.semanticType
        declaredType := typing.spelling
        nullable := typing.nullable
        isPrimaryKey := attributes.isPrimaryKey
        isAutoIncrement := attributes.isAutoIncrement
        isIndexed := attributes.isIndexed
        isUnique := attributes.isUnique
        isNotNull := attributes.isNotNull
        defaultValue := attributes.defaultValue } }

end Extraction

end TypedTables

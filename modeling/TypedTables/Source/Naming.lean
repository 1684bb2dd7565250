import TypedTables.Schema.Identifier
import TypedTables.Schema.Model
/-!
# TypedTables — names in generated sources

The names under which models, providers, fields and columns appear in the
sources that are generated for them. Names are folded to snake case; a
keyword of the generated language is written raw where the language allows
it. Column constants never collide with each other or with the constants
that every module has.
-/

namespace TypedTables

namespace Naming

/-- The keywords of the generated language, those it only reserves included. -/
def keywords : List String :=
  ["as", "break", "const", "continue", "crate", "else", "enum", "extern", "false", "fn", "for",
    "if", "impl", "in", "let", "loop", "match", "mod", "move", "mut", "pub", "ref", "return",
    "self", "Self", "static", "struct", "super", "trait", "true", "type", "unsafe", "use", "where",
    "while", "async", "await", "dyn", "abstract", "become", "box", "do", "final", "macro",
    "override", "priv", "typeof", "unsized", "virtual", "yield", "try", "gen"]

def isKeyword (name : String) : Bool := keywords.contains name

/-- Whether a name cannot even be written raw. -/
def isUnescapable (name : String) : Bool :=
  ["self", "super", "crate", "Self", "_"].contains name

/-- The characters of a name in snake case, given whether a small letter or a
digit stands before them. A capital letter after one of those starts a new
word. -/
def snakeChars (afterSmall : Bool) : List Char → List Char
  | [] => []
  | c :: cs =>
    if c.isUpper then
      if afterSmall then '_' :: c.toLower :: snakeChars false cs
      else c.toLower :: snakeChars false cs
    else c :: snakeChars (c.isLower || c.isDigit) cs

/-- A name in snake case. Letters beyond ASCII stay as they are. -/
def snakeCase (name : String) : String := String.ofList (snakeChars false name.toList)

/-- A keyword as a raw identifier. -/
def raw (name : String) : String := "r#" ++ name

/-- The module of a model. -/
def moduleName (model : String) : String :=
  let snake := snakeCase model
  if ["self", "super", "crate", "Self"].contains snake then snake ++ "_model"
  else if isKeyword snake then raw snake
  else snake

/-- A field or a hook as it is written behind a point. -/
def member (name : String) : String := if isKeyword name then raw name else name

/-- The file of a provider. -/
def fileName (provider : String) : String := snakeCase provider ++ ".rs"

/-- Constants that every module has. -/
def reservedConstants : List String :=
  ["TABLE_NAME", "PRIMARY_KEY", "COLUMNS", "CREATE_TABLE", "CREATE_INDEXES"]

/-- The name with as many suffixes as it needs to be a new one. One suffix
for every taken name is always enough. -/
def freshConstant (taken : List String) : Nat → String → String
  | 0, name => name
  | n + 1, name => if taken.contains name then freshConstant taken n (name ++ "_COLUMN") else name

/-- The natural constant of a field: its name in capital letters. -/
def constantOf (field : String) : String := (snakeCase field).map Char.toUpper

/-- New constants for fields, one after the other. -/
def constantsFor (taken : List String) : List String → List String
  | [] => []
  | field :: fields =>
    let name := freshConstant taken (taken.length + 1) (constantOf field)
    name :: constantsFor (name :: taken) fields

/-- The constants of the columns of some fields. -/
def columnConstants (fields : List Field) : List String :=
  constantsFor reservedConstants (fields.map (·.name))

/-- The characters before the first separator of a module path, and what
comes after it. -/
def splitSegment : List Char → List Char × Option (List Char)
  | [] => ([], none)
  | ':' :: ':' :: rest => ([], some rest)
  | c :: cs =>
    let (segment, rest) := splitSegment cs
    (c :: segment, rest)

/-- The segments of a module path of at most the given length. -/
def segmentsWithin : Nat → List Char → List String
  | 0, _ => []
  | n + 1, cs =>
    match splitSegment cs with
    | (segment, none) => [String.ofList segment]
    | (segment, some rest) => String.ofList segment :: segmentsWithin n rest

/-- The segments of a module path. -/
def segments (path : List Char) : List String := segmentsWithin (path.length + 1) path

/-- Whether segments can go on a path. `isFirst` holds for the first one, and
`isRelative` while all before were steps up. -/
def areSegments (isFirst isRelative : Bool) : List String → Bool
  | [] => true
  | s :: rest =>
    let fits :=
      if s == "crate" || s == "self" then isFirst
      else if s == "super" then isRelative
      else Identifier.isValid s && !isKeyword s && !isUnescapable s
    fits && areSegments false (s == "self" || s == "super") rest

/-- Whether a path can stand before a name that is imported from it. -/
def isModulePath (path : String) : Bool :=
  let cs := path.toList
  let relative := match cs with
    | ':' :: ':' :: rest => rest
    | cs => cs
  areSegments true true (segments relative)

end Naming

end TypedTables

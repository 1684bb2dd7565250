import TypedTables.Source.Code
import TypedTables.Source.Naming
import TypedTables.Source.Options
import TypedTables.Text.Quoted
/-!
# TypedTables — model modules

The module that is generated for a model: constants for its table and
columns, the code that maps rows to instances and instances to payloads,
and functions that start a query. The code uses absolute paths alone, so it
can be included anywhere.
-/

namespace TypedTables

namespace Source

/-- The library that generated code calls into. -/
def runtime : String := "::model_query_core"

/-- A path into that library. -/
def inRuntime (path : String) : String := runtime ++ "::" ++ path

/-- A list of string literals. -/
def literalList (items : List String) : String :=
  "&[" ++ String.intercalate ", " (items.map Text.quoted) ++ "]"

/-- A constant that holds a text. -/
def textConstant (name value : String) : CodeStep :=
  .line ("pub const " ++ name ++ ": &str = " ++ Text.quoted value ++ ";")

/-- A constant whose value is written in code. -/
def constant (name type value : String) : CodeStep :=
  .line ("pub const " ++ name ++ ": " ++ type ++ " = " ++ value ++ ";")

/-- A constant inside an implementation. -/
def innerConstant (name type value : String) : CodeStep :=
  .line ("const " ++ name ++ ": " ++ type ++ " = " ++ value ++ ";")

/-- The fields of a model with their constants. -/
def namedFields (m : Model) : List (Field × String) := m.fields.zip (Naming.columnConstants m.fields)

/-- The constant of the key column, where there is a key. -/
def keyConstant? (m : Model) : Option String :=
  ((namedFields m).find? fun (f, _) => f.isPrimaryKey).map (·.2)

/-- The constants of a module. -/
def constantSteps (m : Model) (o : GeneratorOptions) : Code :=
  [textConstant "TABLE_NAME" m.tableName] ++
    (namedFields m).map (fun (f, name) => textConstant name f.columnName) ++
    [match keyConstant? m with
      | some name => constant "PRIMARY_KEY" "&str" name
      | none => textConstant "PRIMARY_KEY" "",
      constant "COLUMNS" "&[&str]"
        ("&[" ++ String.intercalate ", " (Naming.columnConstants m.fields) ++ "]"),
      textConstant "CREATE_TABLE" (m.createTable o.ddl),
      constant "CREATE_INDEXES" "&[&str]" (literalList (m.createIndexes o.ddl))]

/-- How a field is read from a row. -/
def readSteps (f : Field) (constant : String) : Code :=
  let target := "model." ++ Naming.member f.name
  if f.isAutoIncrement then
    [.line ("let key = row.value(" ++ constant ++ ")?;"),
      .block "if !key.is_null()"
        [.line (target ++ " = " ++ inRuntime ("FromValue::from_value(" ++ constant ++ ", key)?;"))]]
  else [.line (target ++ " = row.get(" ++ constant ++ ")?;")]

/-- How a field is put into a payload. -/
def writeSteps (f : Field) (constant : String) : Code :=
  let own := "self." ++ Naming.member f.name
  let value := inRuntime ("ToValue::to_value(&" ++ own ++ ")")
  let put (v : String) : CodeStep := .line ("values.put(" ++ constant ++ ", " ++ v ++ ");")
  if f.isAutoIncrement then
    [.line ("let key = " ++ value ++ ";"), .block "if !key.is_unset_key()" [put "key"]]
  else if f.nullable && !f.isRequired then [.block ("if " ++ own ++ ".is_some()") [put value]]
  else [put value]

/-- The type of a result that a mapping fault can take the place of. -/
def resultType (ok : String) : String :=
  "::std::result::Result<" ++ ok ++ ", " ++ inRuntime "MappingError" ++ ">"

def fromRowStep (m : Model) : CodeStep :=
  .block ("fn from_row(row: &" ++ inRuntime "Row" ++ ") -> " ++ resultType "Self")
    ([.line "let mut model = Self::default();"] ++
      (namedFields m).flatMap (fun (f, constant) => readSteps f constant) ++
      m.initHooks.map (fun hook => .line ("model." ++ Naming.member hook ++ "();")) ++
      [.line "Ok(model)"])

def toValuesStep (m : Model) : CodeStep :=
  .block ("fn to_values(&self) -> " ++ inRuntime "Values")
    ([.line ("let mut values = " ++ inRuntime "Values::new();")] ++
      (namedFields m).flatMap (fun (f, constant) => writeSteps f constant) ++ [.line "values"])

def keyStep (m : Model) : CodeStep :=
  .block ("fn primary_key(&self) -> " ++ inRuntime "Value")
    [.line <|
      match m.primaryKey? with
      | some f => inRuntime ("ToValue::to_value(&self." ++ Naming.member f.name ++ ")")
      | none => inRuntime "Value::Null"]

def setKeyStep (m : Model) : CodeStep :=
  .block
    ("fn set_primary_key(&mut self, value: &" ++ inRuntime "Value" ++ ") -> " ++ resultType "()")
    [.line <|
      match m.primaryKey? with
      | some f =>
        "self." ++ Naming.member f.name ++ " = " ++
          inRuntime "FromValue::from_value(PRIMARY_KEY, value)?;"
      | none => "let _ = value;",
      .line "Ok(())"]

/-- The kind of a provider in code. -/
def kindName : ProviderKind → String
  | .local => "Local"
  | .content => "Content"

/-- The implementation that ties the struct to its table. -/
def implStep (m : Model) : CodeStep :=
  let kind := inRuntime "ProviderKind"
  .block ("impl " ++ inRuntime "Model" ++ " for " ++ m.name)
    [innerConstant "NAME" "&'static str" (Text.quoted m.name),
      innerConstant "TABLE_NAME" "&'static str" "TABLE_NAME",
      innerConstant "COLUMNS" "&'static [&'static str]" "COLUMNS",
      innerConstant "PRIMARY_KEY" "&'static str" "PRIMARY_KEY",
      innerConstant "PROVIDER" "&'static str" (Text.quoted m.provider.name),
      innerConstant "PROVIDER_KIND" kind (kind ++ "::" ++ kindName m.provider.kind),
      innerConstant "CREATE_TABLE" "&'static str" "CREATE_TABLE",
      innerConstant "CREATE_INDEXES" "&'static [&'static str]" "CREATE_INDEXES",
      .blank, fromRowStep m, .blank, toValuesStep m, .blank, keyStep m, .blank, setKeyStep m]

/-- The functions that start a query, with the builders they return. -/
def entryPoints : List (String × String) :=
  [("select", "Select"), ("insert", "Insert"), ("update", "Update"), ("delete", "Delete"),
    ("count", "Count")]

/-- A function that starts a query. Its type parameter must not hide the
model. -/
def entryPointStep (model : String) (entry : String × String) : CodeStep :=
  let parameter := if model == "P" then "Q" else "P"
  let builder := inRuntime entry.2
  .block
    ("pub fn " ++ entry.1 ++ "<" ++ parameter ++ ": " ++ inRuntime "StorageProvider" ++
      " + ?Sized>(provider: &" ++ parameter ++ ") -> " ++ builder ++ "<'_, " ++ model ++ ", " ++
      parameter ++ ">")
    [.line (builder ++ "::new(provider)")]

/-- Steps with a blank line before each. -/
def spaced (steps : List CodeStep) : Code := steps.flatMap fun step => [.blank, step]

/-- The module of a model. -/
def moduleSteps (m : Model) (o : GeneratorOptions) : Code :=
  [.line ("/// Table \x60" ++ m.tableName ++ "\x60 for \x60" ++ m.name ++ "\x60."),
    .block ("pub mod " ++ Naming.moduleName m.name)
      ([.line ("use " ++ m.packagePath ++ "::" ++ m.name ++ ";"), .blank] ++ constantSteps m o ++
        [.blank, implStep m] ++
        if o.emitEntryPoints then spaced (entryPoints.map (entryPointStep m.name)) else [])]

/-- The text of the module of a model. -/
def renderModule (m : Model) (o : GeneratorOptions) : String := Code.text (moduleSteps m o)

end Source

end TypedTables

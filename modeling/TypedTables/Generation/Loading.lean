import TypedTables.Declaration.Written
import TypedTables.Document.Json.Reader
import TypedTables.Document.Yaml.Reader
import TypedTables.Extraction
import TypedTables.Files
import TypedTables.Files.Path
/-!
# TypedTables — loading declarations

Declaration files are read in the format that their extension names, one
after the other, and the first that fails ends the reading. What they
declare counts as if it stood in one file.
-/

namespace TypedTables

/-- What can go wrong between declaration files and generated files. -/
inductive GenerationError
  /-- A file cannot be read or written. -/
  | file (fault : FileFault)
  /-- A file is not JSON, or not of the form that is needed. -/
  | json
  /-- A file is not YAML, or not of the form that is needed. -/
  | yaml
  /-- The declarations are faulty. -/
  | extraction (errors : List ExtractionError)
  /-- A declaration file is of no known format. -/
  | unsupportedFormat (path : String)
  /-- A configuration lists no declaration files. -/
  | noDeclarations (path : String)
deriving Repr, DecidableEq

/-- The message, up to what the reader of a format has to say. -/
def GenerationError.message : GenerationError → String
  | .file fault => "I/O error: " ++ fault.message
  | .json => "JSON error"
  | .yaml => "YAML error"
  | .extraction errors => ExtractionError.listMessage errors
  | .unsupportedFormat path => "unsupported declaration format: " ++ path
  | .noDeclarations path => "invalid configuration: " ++ path ++ " lists no declaration files"

namespace DocumentFormat

/-- The format of files with an extension. -/
def ofExtension? : String → Option DocumentFormat
  | "yml" | "yaml" => some .yaml
  | "json" => some .json
  | _ => none

/-- Reads a text of the format. -/
def parse? : DocumentFormat → String → Option Document
  | .json => Json.parse?
  | .yaml => Yaml.parse?

/-- The error of a file that is not of the format. -/
def error : DocumentFormat → GenerationError
  | .json => .json
  | .yaml => .yaml

end DocumentFormat

/-- A computation that works with files and may fail. -/
abbrev GenerationT (m : Type → Type) := ExceptT GenerationError m

variable {m : Type → Type} [Monad m] [Files m] {α : Type}

/-- Runs an operation on files. -/
def GenerationT.onFiles (operation : m (Except FileFault α)) : GenerationT m α := do
  match ← operation with
  | .ok a => return a
  | .error fault => throw (.file fault)

/-- Reads the file of a path as a value. A folder can be opened as a file
can, but holds no text. -/
def readDocument (format : DocumentFormat) (decode : Decoder α) (path : String) : GenerationT m α := do
  match ← (Files.readText path : m _) with
  | .error .isFolder => throw format.error
  | .error fault => throw (.file fault)
  | .ok text =>
    match (format.parse? text).bind (decode format) with
    | some a => return a
    | none => throw format.error

namespace Declarations

/-- The declarations of a file. -/
def load (path : String) : GenerationT m Declarations := do
  match (Path.extension? path).bind DocumentFormat.ofExtension? with
  | some format => readDocument format decoder path
  | none => throw (.unsupportedFormat path)

/-- The declarations of each of several files. -/
def loadEach : List String → GenerationT m (List Declarations)
  | [] => return []
  | path :: paths => do
    let first ← load path
    return first :: (← loadEach paths)

/-- The declarations of several files together. -/
def loadAll (paths : List String) : GenerationT m Declarations := do
  return mergeAll (← loadEach paths)

end Declarations

/-- The registry of what some files declare. -/
def Registry.load (paths : List String) : GenerationT m Registry := do
  match extract (← Declarations.loadAll paths) with
  | .ok registry => return registry
  | .error errors => throw (.extraction errors)

end TypedTables

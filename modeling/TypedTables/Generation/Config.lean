import TypedTables.Document.Yaml.Printer
import TypedTables.Generation.Writing
/-!
# TypedTables — generator configurations

A configuration file says which declarations to read, where the generated
files go, and with which options. Its paths are relative to the folder it
lies in.
-/

namespace TypedTables

structure GeneratorConfig where
  version : String := "1.0"
  /-- The declaration files. -/
  declarations : List String
  /-- The folder of the generated files. -/
  output : String
  options : GeneratorOptions := {}
deriving Repr, DecidableEq

namespace GeneratorConfig

def toDocument (c : GeneratorConfig) : Document :=
  .map [("version", .text c.version), ("declarations", .list (c.declarations.map .text)),
    ("output_dir", .text c.output), ("options", c.options.toDocument)]

def decoder : Decoder GeneratorConfig :=
  .record ["version", "declarations", "output_dir", "options"] false fun m => do
    return {
      version := ← m.withDefault "version" "1.0" .text
      declarations := ← m.required "declarations" (.list .text)
      output := ← m.required "output_dir" .text
      options := ← m.withDefault "options" {} GeneratorOptions.decoder }

/-- The declaration files and the output folder, as seen from a folder. -/
def resolve (c : GeneratorConfig) (base : String) : List String × String :=
  (c.declarations.map (Path.join base), Path.join base c.output)

variable {m : Type → Type} [Monad m] [Files m]

def load (path : String) : GenerationT m GeneratorConfig := readDocument .yaml decoder path

def save (c : GeneratorConfig) (path : String) : GenerationT m Unit :=
  GenerationT.onFiles (Files.writeText path (Yaml.print c.toDocument))

/-- Generates what a configuration file asks for. -/
def run (path : String) : GenerationT m WriteReport := do
  let config ← load path
  if config.declarations.isEmpty then throw (.noDeclarations path)
  let (declarations, output) := config.resolve ((Path.parent? path).getD ".")
  generateTo output declarations config.options

end GeneratorConfig

end TypedTables

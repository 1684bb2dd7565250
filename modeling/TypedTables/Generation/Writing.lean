import TypedTables.Generation.Loading
import TypedTables.Source.File
/-!
# TypedTables — writing generated files

Generated files go to a folder, which is made first. A file that holds the
right text already is left alone, so that whatever watches for changes sees
only real ones.
-/

namespace TypedTables

/-- What became of the files, by path. -/
structure WriteReport where
  written : List String := []
  unchanged : List String := []
deriving Repr, DecidableEq

variable {m : Type → Type} [Monad m] [Files m]

namespace SourceFile

/-- Whether a file that was read holds the right text. -/
def isCurrent (f : SourceFile) : Except FileFault String → Bool
  | .ok text => text == f.contents
  | .error _ => false

/-- Writes one file, unless it is there with the same text, and adds it to
the report. -/
def write (folder : String) (report : WriteReport) (f : SourceFile) : GenerationT m WriteReport := do
  let path := Path.join folder f.name
  if f.isCurrent (← (Files.readText path : m _)) then
    return { report with unchanged := report.unchanged ++ [path] }
  else
    GenerationT.onFiles (Files.writeText path f.contents)
    return { report with written := report.written ++ [path] }

/-- Writes files one after the other. -/
def writeFrom (folder : String) (report : WriteReport) :
    List SourceFile → GenerationT m WriteReport
  | [] => return report
  | f :: files => do
    let report ← f.write folder report
    writeFrom folder report files

/-- Writes files to a folder. -/
def writeAll (folder : String) (files : List SourceFile) : GenerationT m WriteReport := do
  GenerationT.onFiles (Files.createFolders folder)
  writeFrom folder {} files

end SourceFile

/-- Generates the files of what some files declare. Nothing is written
before everything has been read and found free of errors. -/
def generateTo (folder : String) (declarations : List String) (o : GeneratorOptions) :
    GenerationT m WriteReport := do
  let registry ← Registry.load declarations
  SourceFile.writeAll folder (Source.generate registry o)

end TypedTables

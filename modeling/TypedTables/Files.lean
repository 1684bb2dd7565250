/-!
# TypedTables — files

What is done with files, and how it fails. `Files` abstracts from where the
files are kept: a program works on those of the machine, and everything
that reads or writes files can be run, and reasoned about, on a tree of
files held in memory.
-/

namespace TypedTables

/-- Why a file cannot be read or written. -/
inductive FileFault
  | notFound
  /-- A file stands where a folder is needed. -/
  | notFolder
  /-- A folder stands where a file is needed. -/
  | isFolder
  /-- A file stands where a folder is to be made. -/
  | taken
  /-- Any other reason, in the words of the machine. -/
  | other (detail : String)
deriving Repr, DecidableEq

/-- The reason in the words of the machine. -/
def FileFault.message : FileFault → String
  | .notFound => "No such file or directory (os error 2)"
  | .notFolder => "Not a directory (os error 20)"
  | .isFolder => "Is a directory (os error 21)"
  | .taken => "File exists (os error 17)"
  | .other detail => detail

/-- A computation that works with files. -/
class Files (m : Type → Type) where
  /-- The text of a file. -/
  readText : (path : String) → m (Except FileFault String)
  /-- Makes or replaces a file. -/
  writeText : (path text : String) → m (Except FileFault Unit)
  /-- Makes a folder, and those it lies in, unless they are there. -/
  createFolders : (path : String) → m (Except FileFault Unit)

end TypedTables

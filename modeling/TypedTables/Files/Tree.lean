import TypedTables.Files
import TypedTables.Files.Path
import TypedTables.Registry.Directory
/-!
# TypedTables — trees of files

Files and folders held in memory, under their paths. Paths that are not
absolute start at a folder that is always there, and so is the root. A path
is followed step by step, and each step leaves a folder.
-/

namespace TypedTables

/-- What a path can lead to. -/
inductive FileEntry
  | folder
  | file (text : String)
deriving Repr, DecidableEq

/-- Files and folders by path. -/
structure FileTree where
  entries : Directory FileEntry := .empty
deriving Repr, DecidableEq, Inhabited

namespace FileTree

/-- A place in a tree: the names that lead to it, the last one first. An
empty name stands for the root. -/
abbrev Place := List String

/-- The path of a place. -/
def path (place : Place) : String := String.intercalate "/" place.reverse

/-- Whether files can be put in a place without making a folder first. -/
def isBase : Place → Bool
  | [] => true
  | [name] => name.isEmpty
  | _ => false

def entry? (t : FileTree) (place : Place) : Option FileEntry :=
  if isBase place then some .folder else t.entries.find? (path place)

def insert (t : FileTree) (place : Place) (entry : FileEntry) : FileTree :=
  ⟨t.entries.insert (path place) entry⟩

/-- The place that one piece of a path leads to. -/
def step (place : Place) (piece : String) : Place :=
  if !Path.isStep piece then place
  else if piece == ".." then (if isBase place then place else place.tail)
  else piece :: place

/-- Follows the pieces of a path. The place it leads to need not be there,
but the folder of that place has to be. -/
def follow (t : FileTree) (place : Place) : List String → Except FileFault Place
  | [] => .ok place
  | piece :: rest =>
    match t.entry? place with
    | some .folder => follow t (step place piece) rest
    | some (.file _) => .error .notFolder
    | none => .error .notFound

/-- Where a path starts, and its pieces from there. -/
def start (path : String) : Place × List String :=
  (if Path.isAbsolute path then [""] else [], Path.pieces path)

/-- The place a path leads to. -/
def locate (t : FileTree) (path : String) : Except FileFault Place :=
  if path.isEmpty then .error .notFound
  else t.follow (start path).1 (start path).2

def readText (t : FileTree) (path : String) : Except FileFault String := do
  match t.entry? (← t.locate path) with
  | some (.file text) => .ok text
  | some .folder => .error .isFolder
  | none => .error .notFound

/-- A file to be made is not named with a slash at the end. -/
def writeText (t : FileTree) (path text : String) : Except FileFault FileTree := do
  let place ← t.locate (String.ofList (path.toList.reverse.dropWhile (· == '/')).reverse)
  match t.entry? place with
  | some .folder => .error .isFolder
  | _ =>
    if path.toList.getLast? == some '/' then .error .isFolder
    else .ok (t.insert place (.file text))

/-- Makes the folders that the pieces of a path lead through. -/
def createFrom (t : FileTree) (place : Place) : List String → Except FileFault FileTree
  | [] => .ok t
  | piece :: rest =>
    let next := step place piece
    match t.entry? next with
    | some .folder => createFrom t next rest
    | some (.file _) => .error (if rest.isEmpty then .taken else .notFolder)
    | none => createFrom (t.insert next .folder) next rest

def createFolders (t : FileTree) (path : String) : Except FileFault FileTree :=
  t.createFrom (start path).1 (start path).2

/-- The paths of all files, in order. -/
def filePaths (t : FileTree) : List String :=
  t.entries.entries.filterMap fun (path, entry) =>
    match entry with
    | .file _ => some path
    | .folder => none

/-- Changes the tree if that succeeds. -/
def attempt (change : FileTree → Except FileFault FileTree) : StateM FileTree (Except FileFault Unit) :=
  fun t =>
    match change t with
    | .ok changed => (.ok (), changed)
    | .error fault => (.error fault, t)

instance : Files (StateM FileTree) where
  readText path := fun t => (t.readText path, t)
  writeText path text := attempt fun t => t.writeText path text
  createFolders path := attempt fun t => t.createFolders path

end FileTree

end TypedTables

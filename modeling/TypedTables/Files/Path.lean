/-!
# TypedTables — paths

Paths as texts, with a slash between their parts. Joining, taking the
folder of a file and taking its extension work on the text alone: they do
not ask which files there are.
-/

namespace TypedTables

namespace Path

/-- Whether a path starts at the root. -/
def isAbsolute (path : String) : Bool := path.toList.head? == some '/'

/-- A path as seen from a base. An absolute path does not depend on it. -/
def join (base path : String) : String :=
  if isAbsolute path || base.isEmpty then path
  else if base.toList.getLast? == some '/' then base ++ path
  else base ++ "/" ++ path

/-- The pieces between the slashes of a text, the first of which has been
read up to the given characters, in reverse. -/
def piecesFrom (taken : List Char) : List Char → List String
  | [] => [String.ofList taken.reverse]
  | c :: cs =>
    if c = '/' then String.ofList taken.reverse :: piecesFrom [] cs else piecesFrom (c :: taken) cs

/-- The pieces between the slashes of a path. -/
def pieces (path : String) : List String := piecesFrom [] path.toList

/-- Whether a piece leads anywhere. -/
def isStep (piece : String) : Bool := !(piece.isEmpty || piece == ".")

/-- The name a path ends in, if it ends in a name. -/
def fileName? (path : String) : Option String :=
  match ((pieces path).filter isStep).getLast? with
  | some name => if name == ".." then none else some name
  | none => none

/-- What follows the last dot of a name, where something stands before it. -/
def extensionOf? (name : String) : Option String :=
  let (after, before) := name.toList.reverse.span (· != '.')
  match before with
  | [] | [_] => none
  | _ => some (String.ofList after.reverse)

/-- The extension of the file that a path ends in. -/
def extension? (path : String) : Option String := (fileName? path).bind extensionOf?

/-- The pieces of a path, last one first, without those at its end that lead
nowhere. The first piece of the path stays. -/
def trimEnd : List String → List String
  | [] => []
  | [first] => [first]
  | piece :: rest => if isStep piece then piece :: rest else trimEnd rest

/-- The folder of a path. The root has none, and neither has the empty
path. -/
def parent? (path : String) : Option String :=
  match trimEnd (pieces path).reverse with
  | [] => none
  | [first] => if first.isEmpty then none else some ""
  | _ :: rest =>
    let folder := String.intercalate "/" (trimEnd rest).reverse
    some (if folder.isEmpty then "/" else folder)

end Path

end TypedTables

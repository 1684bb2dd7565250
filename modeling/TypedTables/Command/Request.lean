import TypedTables.Command.Manual
import TypedTables.Source.Options
/-!
# TypedTables — command-line requests

What can be asked for on the command line, and how the arguments say it: a
command, for migrations an operation, and their options. How much is
logged may be set before or after the command, to one of two extremes.
Arguments can also ask for a page of the manual or for the version of the
program; whatever stands before has to be well formed even then, but it
need not be complete.
-/

namespace TypedTables

/-- What is done with the tables of a database. -/
inductive MigrationOperation
  | up
  | down
  | refresh
  | status (asJson : Bool)
deriving Repr, DecidableEq

/-- Which tables of which database. -/
structure MigrationTarget where
  /-- The path of the database. -/
  database : String
  inputs : List String
  /-- The only provider whose tables are meant, if there is one. -/
  provider : Option String
deriving Repr, DecidableEq

/-- A request on the command line. -/
inductive Request
  /-- Generates what a configuration file asks for. -/
  | generateFrom (config : String)
  | generate (inputs : List String) (output : Option String) (options : GeneratorOptions)
  | check (inputs : List String)
  | inspect (inputs : List String) (format : ListingFormat) (output : Option String)
  | ddl (inputs : List String) (provider : Option String) (ifNotExists : Bool)
  | migrate (operation : MigrationOperation) (target : MigrationTarget)
deriving Repr, DecidableEq

/-- What arguments make that make no request. -/
inductive NoRequest
  /-- They cannot be understood. -/
  | faulty
  /-- They ask for a page of the manual. -/
  | manual (page : Command.Page)
  /-- They ask for the version of the program. -/
  | version
deriving Repr, DecidableEq

namespace Command

/-- The meaning of some arguments. -/
abbrev Meaning := Except NoRequest

variable {α : Type}

/-- Something that the arguments have to say. -/
def needed : Option α → Meaning α
  | some a => return a
  | none => throw .faulty

/-- Whether options can stand together. -/
def isConsistent (g : Given) : Bool := !(g.has "verbose" && g.has "quiet")

/-- The options at the start of some arguments, for a command, and the words
from the first one on. -/
def optionsOf (p : Page) (arguments : List String) : Meaning (Given × List String) := do
  let (given, words) ← needed (readOptions p.allOptions none arguments)
  if !Given.isSound given then throw .faulty
  if Given.has given "help" then throw (.manual p)
  if Given.has given "version" then throw .version
  return (given, words)

/-- The options of a command, which end the arguments. -/
def allOptionsOf (p : Page) (arguments : List String) : Meaning Given := do
  let (given, words) ← optionsOf p arguments
  let isComplete := p.options.all fun o => !o.isRequired || Given.has given o.name
  if words.isEmpty && isComplete && isConsistent given then return given else throw .faulty

/-- What arguments mean by the command that they name next, below another
one. In place of a command they can ask for the page that words lead to. -/
def below (p : Page) (arguments : List String) (next : String → List String → Meaning α) : Meaning α := do
  let (given, words) ← optionsOf p arguments
  match words with
  | [] => throw .faulty
  | "help" :: rest => throw (.manual (← needed (page? (p.words ++ rest))))
  | word :: rest =>
    let meaning ← next word rest
    if isConsistent given then return meaning else throw .faulty

def generateRequest (arguments : List String) : Meaning Request := do
  let g ← allOptionsOf generatePage arguments
  match g.value? "config" with
  | some path => if g.has "input" || g.has "output" then throw .faulty else return .generateFrom path
  | none =>
    return .generate (g.values "input") (g.value? "output")
      { ifNotExists := !g.has "no-if-not-exists"
        emitIndexes := !g.has "no-indexes"
        emitEntryPoints := !g.has "no-entry-points" }

def checkRequest (arguments : List String) : Meaning Request := do
  let g ← allOptionsOf checkPage arguments
  return .check (g.values "input")

def inspectRequest (arguments : List String) : Meaning Request := do
  let g ← allOptionsOf inspectPage arguments
  let format := ((g.value? "format").bind ListingFormat.ofName?).getD .table
  return .inspect (g.values "input") format (g.value? "output")

def ddlRequest (arguments : List String) : Meaning Request := do
  let g ← allOptionsOf ddlPage arguments
  return .ddl (g.values "input") (g.value? "provider") (!g.has "no-if-not-exists")

/-- A migration with the target that its options name. -/
def migration (p : Page) (arguments : List String) (operation : Given → MigrationOperation) :
    Meaning Request := do
  let g ← allOptionsOf p arguments
  return .migrate (operation g) ⟨← needed (g.value? "db"), g.values "input", g.value? "provider"⟩

def migrateRequest (arguments : List String) : Meaning Request :=
  below migratePage arguments fun operation rest =>
    match operation with
    | "up" => migration upPage rest fun _ => .up
    | "down" => migration downPage rest fun _ => .down
    | "refresh" => migration refreshPage rest fun _ => .refresh
    | "status" => migration statusPage rest fun g => .status (g.has "json")
    | _ => throw .faulty

end Command

/-- The request that arguments make, if they make one. -/
def Request.ofArguments (arguments : List String) : Except NoRequest Request :=
  Command.below Command.mainPage arguments fun command rest =>
    match command with
    | "generate" => Command.generateRequest rest
    | "check" => Command.checkRequest rest
    | "inspect" => Command.inspectRequest rest
    | "ddl" => Command.ddlRequest rest
    | "migrate" => Command.migrateRequest rest
    | _ => throw .faulty

end TypedTables

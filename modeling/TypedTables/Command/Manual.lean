import TypedTables.Command.Arguments
import TypedTables.Registry.Listing
/-!
# TypedTables — the manual of the command line

There is one page for each command, found by the words that lead to it: it
says which options there are. A command with further commands lists them,
together with the word that shows the pages. What is read on the command
line goes by these pages as well.
-/

namespace TypedTables

namespace Command

/-- What the program is called. -/
def program : String := "model-query"

/-- The options that set how much is logged. -/
def verbosity : List OptionSpec := [
  { name := "verbose", letter := some 'v', about := "Log debug output to stderr" },
  { name := "quiet", letter := some 'q', about := "Only log warnings and errors" }]

/-- The option that shows a page. -/
def helpOption : OptionSpec := { name := "help", letter := some 'h', about := "Print help", isLast := true }

/-- The option that shows the version of the program. -/
def versionOption : OptionSpec :=
  { name := "version", letter := some 'V', about := "Print version", isLast := true }

/-- What the program says of its version. -/
def versionText : String := program ++ " 0.1.0\n"

/-- The page of a command. -/
structure Page where
  /-- The words that lead to the command. -/
  words : List String := []
  about : String
  /-- The options of the command alone. -/
  options : List OptionSpec := []
  /-- The commands below it, with what they are about. -/
  commands : List (String × String) := []
deriving Repr, DecidableEq

/-! ## The commands -/

/-- An option that takes no value. -/
def flag (name about : String) : OptionSpec := { name, about }

/-- The option for the files that models are declared in. -/
def inputOption : OptionSpec :=
  { name := "input", letter := some 'i', arity := .many, values := .path, placeholder := "INPUTS"
    about := "Declaration files (YAML or JSON)" }

/-- The same option, where there have to be such files. -/
def inputs : OptionSpec := { inputOption with isRequired := true }

/-- An option for the path of something that is written or read. -/
def pathOption (name placeholder about : String) : OptionSpec :=
  { name, arity := .one, values := .path, placeholder, about }

/-- The option for the only provider that is meant. -/
def providerOption (about : String) : OptionSpec :=
  { name := "provider", arity := .one, placeholder := "PROVIDER", about }

/-- The options that say which tables of which database a migration is about. -/
def targetOptions : List OptionSpec := [
  { pathOption "db" "DB" "Database file path" with isRequired := true }, inputs,
  providerOption "Only manage tables of this provider"]

def generatePage : Page where
  words := ["generate"]
  about := "Generate Rust sources from model declarations"
  options := [
    pathOption "config" "CONFIG" "Generator configuration file; replaces --input and --output",
    inputOption,
    { pathOption "output" "OUTPUT" "Output directory for generated files" with letter := some 'o' },
    flag "no-if-not-exists" "Omit IF NOT EXISTS from generated DDL",
    flag "no-indexes" "Skip CREATE INDEX statements",
    flag "no-entry-points" "Skip the per-model select/insert/update/delete/count functions"]

def checkPage : Page where
  words := ["check"]
  about := "Validate model declarations without writing anything"
  options := [inputs]

def inspectPage : Page where
  words := ["inspect"]
  about := "Print the extracted model metadata"
  options := [
    inputs,
    { name := "format", arity := .one, placeholder := "FORMAT", about := "Output format"
      values := .choice (ListingFormat.all.map (·.name)) ListingFormat.table.name },
    pathOption "output" "OUTPUT" "Write to a file instead of stdout"]

def ddlPage : Page where
  words := ["ddl"]
  about := "Print the CREATE statements for local providers"
  options := [
    inputs, providerOption "Only print tables of this provider",
    flag "no-if-not-exists" "Omit IF NOT EXISTS"]

def upPage : Page where
  words := ["migrate", "up"]
  about := "Create tables and indexes"
  options := targetOptions

def downPage : Page where
  words := ["migrate", "down"]
  about := "Drop tables in reverse creation order"
  options := targetOptions

def refreshPage : Page where
  words := ["migrate", "refresh"]
  about := "Drop and recreate tables"
  options := targetOptions

def statusPage : Page where
  words := ["migrate", "status"]
  about := "Show which tables exist and their row counts"
  options := targetOptions ++ [flag "json" "Print the status as JSON"]

namespace Page

/-- A page as a command below others. -/
def entry (p : Page) : String × String := (p.words.getLast?.getD program, p.about)

/-- The page about the word that shows pages, below a command. -/
def help (p : Page) : Page where
  words := p.words ++ ["help"]
  about := "Print this message or the help of the given subcommand(s)"

end Page

def migratePage : Page where
  words := ["migrate"]
  about := "Create, drop or inspect model tables in a SQLite database"
  commands := [upPage, downPage, refreshPage, statusPage].map (·.entry)

/-- The page of the program itself. -/
def mainPage : Page where
  about := "Typed SQL query code generation and schema management"
  commands := [generatePage, checkPage, inspectPage, ddlPage, migratePage].map (·.entry)

/-- All pages. -/
def pages : List Page := [
  mainPage, mainPage.help, generatePage, checkPage, inspectPage, ddlPage, migratePage, migratePage.help,
  upPage, downPage, refreshPage, statusPage]

/-- The page that words lead to. -/
def page? (words : List String) : Option Page := pages.find? fun p => p.words == words

/-! ## How a page reads -/

namespace OptionSpec

/-- An option as it is written, with a value. -/
def usage (o : OptionSpec) : String :=
  "--" ++ o.name ++
    match o.arity with
    | .none => ""
    | .one => " <" ++ o.placeholder ++ ">"
    | .many => " <" ++ o.placeholder ++ ">..."

/-- An option in a list of options. -/
def entry (o : OptionSpec) : String × String :=
  let letter :=
    match o.letter with
    | some c => "-" ++ c.toString ++ ", "
    | none => "    "
  let choice :=
    match o.values with
    | .text | .path => ""
    | .choice words standard =>
      " [default: " ++ standard ++ "] [possible values: " ++ ", ".intercalate words ++ "]"
  (letter ++ o.usage, o.about ++ choice)

end OptionSpec

/-- Two lists, an item of the one after an item of the other. -/
def alternate {α : Type} : List α → List α → List α
  | [], ys => ys
  | xs, [] => xs
  | x :: xs, y :: ys => x :: y :: alternate xs ys

/-- A block of a page: a title, and entries in two columns. None is shown
without entries. -/
def block? (title : String) (entries : List (String × String)) : Option String :=
  if entries.isEmpty then none
  else
    let width := (entries.map fun e => e.1.length).foldl max 0
    some ("\n".intercalate ((title ++ ":") ::
      entries.map fun e => "  " ++ Listing.padded width e.1 ++ "  " ++ e.2))

namespace Page

/-- Whether the page is about the word that shows pages. -/
def isHelp (p : Page) : Bool := p.words.getLast? == some "help"

/-- The options that can be given where the command is given, in the order in
which they are shown. -/
def allOptions (p : Page) : List OptionSpec :=
  alternate p.options verbosity ++ [helpOption] ++ if p.words.isEmpty then [versionOption] else []

/-- How the command is called. -/
def usage (p : Page) : String :=
  let required := (p.options.filter (·.isRequired)).map (·.usage)
  let arguments :=
    if p.isHelp then ["[COMMAND]..."]
    else ["[OPTIONS]"] ++ required ++ if p.commands.isEmpty then [] else ["<COMMAND>"]
  "Usage: " ++ " ".intercalate (program :: p.words ++ arguments)

/-- The page as it is shown. -/
def text (p : Page) : String :=
  let commands := if p.commands.isEmpty then [] else p.commands ++ [p.help.entry]
  let blocks :=
    [block? "Commands" commands,
     block? "Arguments" (if p.isHelp then [("[COMMAND]...", "Print help for the subcommand(s)")] else []),
     block? "Options" (if p.isHelp then [] else p.allOptions.map (·.entry))]
  "\n\n".intercalate (p.about :: p.usage :: blocks.filterMap id) ++ "\n"

end Page

end Command

end TypedTables

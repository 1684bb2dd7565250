import TypedTables.Command.Request
import TypedTables.Database.Migration
import TypedTables.Database.Written
import TypedTables.Generation.Config
/-!
# TypedTables — carrying out requests

What the command line does: it generates, checks and shows models, and
creates, drops and inspects their tables. A request answers with the text
to print, or fails with a message. A database is a file; opening one that
is not there makes an empty file, and a file that is empty is a database
without tables.
-/

namespace TypedTables

namespace Command

/-- A computation that works with files and may fail with a message. -/
abbrev RequestT (m : Type → Type) := ExceptT String m

variable {m : Type → Type} [Monad m] [Files m] {α : Type}

/-- A line of output. -/
def line (s : String) : String := s ++ "\n"

/-- A name in single quotes. -/
def inQuotes (s : String) : String := "'" ++ s ++ "'"

/-- A step of the generation, with words that say what failed. -/
def generating (what : String) (action : GenerationT m α) : RequestT m α := do
  match ← action.run with
  | .ok a => return a
  | .error e => throw (what ++ ": " ++ e.message)

def loadRegistry (inputs : List String) : RequestT m Registry :=
  generating "failed to load declarations" (Registry.load inputs)

/-- The files that were written, and how many there were of each kind. -/
def reportText (r : WriteReport) : String :=
  String.join (r.written.map fun path => line ("wrote " ++ path)) ++
    line (toString r.written.length ++ " written, " ++ toString r.unchanged.length ++ " unchanged")

def runGenerate (inputs : List String) (output : Option String) (o : GeneratorOptions) :
    RequestT m String := do
  if inputs.isEmpty then throw "either --config or --input is required"
  match output with
  | none => throw "--output is required with --input"
  | some folder => return reportText (← generating "generation failed" (generateTo folder inputs o))

def runCheck (inputs : List String) : RequestT m String := do
  let r ← loadRegistry inputs
  return line ("ok: " ++ toString r.providers.size ++ " provider(s), " ++ toString r.size ++ " model(s)")

/-- A text that ends with a line break. -/
def endLine (s : String) : String := if s.toList.getLast? == some '\n' then s else line s

def runInspect (inputs : List String) (format : ListingFormat) (output : Option String) :
    RequestT m String := do
  let text := (← loadRegistry inputs).listing format
  match output with
  | none => return endLine text
  | some path =>
    match ← (Files.writeText path text : m _) with
    | .ok () => return ""
    | .error fault => throw ("failed to write " ++ inQuotes path ++ ": " ++ fault.message)

/-- The local models of a registry, or those of one local provider. -/
def localModels (r : Registry) : Option String → Except String (List Model)
  | none => return r.models.values.filter (·.provider.kind == .local)
  | some name =>
    match r.provider? name with
    | none => throw ("unknown provider " ++ inQuotes name)
    | some p =>
      if p.kind = .local then return r.modelsOf name
      else
        throw ("provider " ++ inQuotes name ++ " is a " ++ p.kind.name ++
          " provider; only local providers have tables")

/-- The plan of the local models. -/
def localPlan (r : Registry) (provider : Option String) (o : DdlOptions) : Except String SchemaPlan := do
  let models ← localModels r provider
  if models.isEmpty then throw "no local models found"
  return .ofModels models o

def runDdl (inputs : List String) (provider : Option String) (ifNotExists : Bool) :
    RequestT m String := do
  let r ← loadRegistry inputs
  let options : GeneratorOptions := { ifNotExists }
  let plan ← liftM (localPlan r provider options.ddl)
  return String.join (plan.statements.map fun s => line (s ++ ";"))

/-! ## Databases in files -/

/-- What a file holds as a database. -/
def databaseOfText (text : String) : Except EngineFault Database :=
  if text.isEmpty then .ok .empty
  else
    match (Json.parse? text).bind (Database.decoder .json) with
    | some d => .ok d
    | none => .error .notDatabase

/-- Opens a database. That a file holds no database shows only when it is
used. -/
def openDatabase (path : String) : RequestT m (Except EngineFault Database) := do
  let fail : RequestT m (Except EngineFault Database) :=
    throw ("failed to open database " ++ inQuotes path ++ ": " ++
      (DatabaseError.engine .cannotOpen).message)
  match ← (Files.readText path : m _) with
  | .ok text => return databaseOfText text
  | .error .notFound =>
    match ← (Files.writeText path "" : m _) with
    | .ok () => return .ok .empty
    | .error _ => fail
  | .error _ => fail

/-- Works on a database and keeps it if it has changed. -/
def onDatabase (path : String) (database : Except EngineFault Database) (fault : EngineFault → DatabaseError)
    (what : String) (action : ConnectionM Database DatabaseError α) : RequestT m α := do
  let failure (e : DatabaseError) : String := what ++ ": " ++ e.message
  match database with
  | .error f => throw (failure (fault f))
  | .ok before =>
    let (result, after) := action ⟨before, 0⟩
    if after.database ≠ before then
      match ← (Files.writeText path (Json.compact after.database.toDocument) : m _) with
      | .ok () => pure ()
      | .error f => throw (what ++ ": " ++ f.message)
    match result with
    | .ok a => return a
    | .error e => throw (failure e)

/-- How many rows a table has, for readers. -/
def statusLine (t : TableStatus) : String :=
  line ("  " ++ t.name ++ ": " ++
    if t.tableExists then toString t.rows ++ " row(s)" else "missing")

def statusText (s : MigrationStatus) : String :=
  line "Migration Status:" ++ line ("  Tables exist: " ++ if s.tablesExist then "yes" else "no") ++
    String.join (s.tables.map statusLine)

def runMigration (operation : MigrationOperation) (target : MigrationTarget) : RequestT m String := do
  let r ← loadRegistry target.inputs
  let options : GeneratorOptions := {}
  let plan ← liftM (localPlan r target.provider options.ddl)
  let database ← openDatabase target.database
  let done (what verb : String) : String :=
    line (what ++ " complete. " ++ toString plan.tables.length ++ " table(s) " ++ verb ++ " " ++
      inQuotes target.database ++ ".")
  match operation with
  | .up =>
    onDatabase target.database database .notCreated "migration up failed" (Migration.up .embedded plan)
    return done "Migration up" "created in"
  | .down =>
    onDatabase target.database database .notDropped "migration down failed"
      (Migration.down .embedded plan)
    return done "Migration down" "dropped from"
  | .refresh =>
    onDatabase target.database database .notDropped "refresh failed" (Migration.refresh .embedded plan)
    return done "Refresh" "recreated in"
  | .status asJson =>
    let status ← onDatabase target.database database .engine "failed to get migration status"
      (Migration.status .embedded plan)
    return if asJson then line (Json.pretty status.toDocument) else statusText status

end Command

/-- Carries out a request. -/
def Request.run {m : Type → Type} [Monad m] [Files m] : Request → Command.RequestT m String
  | .generateFrom config => do
    return Command.reportText
      (← Command.generating ("generation from " ++ Command.inQuotes config ++ " failed")
        (GeneratorConfig.run config))
  | .generate inputs output options => Command.runGenerate inputs output options
  | .check inputs => Command.runCheck inputs
  | .inspect inputs format output => Command.runInspect inputs format output
  | .ddl inputs provider ifNotExists => Command.runDdl inputs provider ifNotExists
  | .migrate operation target => Command.runMigration operation target

/-- What a run of the command line leaves behind. -/
structure CommandResult where
  exitCode : Nat
  output : String := ""
  /-- The message of a run that fails. -/
  message : Option String := none
deriving Repr, DecidableEq

/-- Runs the command line. Arguments that cannot be understood end it with
code two, and a request that fails with code one. -/
def Command.run {m : Type → Type} [Monad m] [Files m] (arguments : List String) : m CommandResult := do
  match Request.ofArguments arguments with
  | .error .faulty => return { exitCode := 2 }
  | .error (.manual page) => return { exitCode := 0, output := page.text }
  | .error .version => return { exitCode := 0, output := Command.versionText }
  | .ok request =>
    match ← request.run.run with
    | .ok output => return { exitCode := 0, output }
    | .error message => return { exitCode := 1, message := some message }

end TypedTables

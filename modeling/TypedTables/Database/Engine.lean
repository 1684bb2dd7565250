import TypedTables.Database.Change
import TypedTables.Database.Definition
import TypedTables.Database.Query
import TypedTables.Database.Reader
/-!
# TypedTables — engines

An engine runs statements on an open database. What stands above it, the
local database and its migrations, works with any engine, and asks of it
only that a transaction can be taken back: whatever a statement did before
it failed, and even if the commit fails, the database is then what it was.
`Engine.embedded` is the engine of this library.
-/

namespace TypedTables

/-- An open database. The number of the row inserted last is not part of
what it stores. -/
structure Connection (δ : Type) where
  database : δ
  lastNumber : Int64 := 0
deriving Repr, DecidableEq

/-- A computation on an open database. What it has done is there also after
it fails. -/
abbrev ConnectionM (δ ε : Type) := ExceptT ε (StateM (Connection δ))

/-- What an engine does on an open database. -/
structure Engine (δ : Type) where
  /-- Runs a statement and counts the rows it changed. -/
  execute : Sql → ConnectionM δ EngineFault Nat
  /-- Runs a statement and returns its rows. -/
  query : Sql → ConnectionM δ EngineFault Cursor
  /-- Runs all statements of a text. -/
  script : String → ConnectionM δ EngineFault Unit
  /-- Whether there is a table of exactly this name. -/
  hasTable : String → ConnectionM δ EngineFault Bool
  /-- Whether a transaction can be started. To start one changes nothing yet. -/
  start : Connection δ → Except EngineFault Unit
  commit : ConnectionM δ EngineFault Unit

namespace Engine

variable {δ ε α : Type}

/-- Runs a computation as one transaction. If it fails, or if its changes
cannot be committed, the database is again what it was. That is what is asked of
an engine for statements that leave the transaction open. One that ends it by
itself, a `COMMIT` or `ROLLBACK` among the statements of a plan, is outside of
this definition. -/
def transaction (e : Engine δ) (ofFault : EngineFault → ε) (action : ConnectionM δ ε α) :
    ConnectionM δ ε α := fun before =>
  match e.start before with
  | .error fault => (.error (ofFault fault), before)
  | .ok () =>
    match action before with
    | (.error error, after) => (.error error, { after with database := before.database })
    | (.ok a, after) =>
      match e.commit after with
      | (.ok (), committed) => (.ok a, committed)
      | (.error fault, failed) =>
        (.error (ofFault fault), { failed with database := before.database })

/-- A value as it is bound to a placeholder. What is not a number is empty. -/
def bound : Value → Value
  | .real x => if x.isNaN then .null else .real x
  | v => v

/-- What an instruction answers: rows, and the number of rows it changed. -/
structure Outcome where
  cursor : Cursor := .empty
  changed : Nat := 0

/-- A step that changes nothing if it fails. -/
def step (f : δ → Except EngineFault (α × δ)) : ConnectionM δ EngineFault α := fun c =>
  match f c.database with
  | .ok (a, database) => (.ok a, { c with database })
  | .error fault => (.error fault, c)

/-- A definition, which answers nothing. -/
def define (f : Database → Except EngineFault Database) : ConnectionM Database EngineFault Outcome :=
  step fun d => do return ({}, ← f d)

/-- A change of rows, which answers how many there were. -/
def change (f : Database → Except EngineFault (Database × Nat)) :
    ConnectionM Database EngineFault Outcome :=
  step fun d => do
    let (d, changed) ← f d
    return ({ changed }, d)

/-- An insertion. The number of its row is the last one from the moment the
row is stored, even if that turns out to break a foreign key. -/
def insert (f : Database → Except EngineFault Database.Insertion) :
    ConnectionM Database EngineFault Outcome := fun c =>
  match f c.database with
  | .error fault => (.error fault, c)
  | .ok i =>
    let stored := { c with lastNumber := i.number.getD c.lastNumber }
    match i.check with
    | .ok () => (.ok { changed := if i.number.isSome then 1 else 0 }, { stored with database := i.database })
    | .error fault => (.error fault, if i.isCheckedLate then stored else c)

/-- Runs an instruction. -/
def run (args : List Value) : Instruction → ConnectionM Database EngineFault Outcome
  | .createTable name ifNotExists definition text =>
    define fun d => d.createTable name ifNotExists definition text
  | .createIndex name ifNotExists table columns text =>
    define fun d => d.createIndex name ifNotExists table columns text
  | .dropTable name ifExists => define fun d => d.dropTable name ifExists
  | .insert table policy entries => insert fun d => d.insertRow table policy entries args
  | .update table assignments condition => change fun d => d.update table assignments condition args
  | .delete table condition => change fun d => d.delete table condition args
  | .select query => step fun d => do return ({ cursor := ← Query.run d query args }, d)

/-- Runs a statement with its arguments, as many as it has placeholders. -/
def runSql (s : Sql) : ConnectionM Database EngineFault Outcome :=
  match Instruction.ofText? s.text with
  | none => throw .syntaxError
  | some (i, placeholders) =>
    if s.args.length = placeholders then run (s.args.map bound) i else throw .wrongArgumentCount

/-- Runs instructions one after the other. -/
def runAll : List Instruction → ConnectionM Database EngineFault Unit
  | [] => return ()
  | i :: rest => do
    discard (run [] i)
    runAll rest

def runScript (script : String) : ConnectionM Database EngineFault Unit :=
  match Instruction.listOfText? script with
  | none => throw .syntaxError
  | some instructions => runAll instructions

/-- The engine that keeps its databases in memory. -/
def embedded : Engine Database :=
  { execute := fun s => do return (← runSql s).changed
    query := fun s => do return (← runSql s).cursor
    script := runScript
    hasTable := fun name => step fun d => .ok (d.hasTable name, d)
    start := fun _ => .ok ()
    commit := return () }

end Engine

end TypedTables

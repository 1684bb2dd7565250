import TypedTables.Database.Local
import TypedTables.Document
import TypedTables.Schema.Identifier
import TypedTables.Schema.Plan
/-!
# TypedTables — migrations

How the tables of a plan are created, dropped and looked after. Creating and
dropping are one transaction each: either every statement takes effect or
none does. A plan that names a table by anything but an identifier is
refused before any statement is run.
-/

namespace TypedTables

/-- What a database holds for one table of a plan. -/
structure TableStatus where
  name : String
  tableExists : Bool
  rows : Nat
deriving Repr, DecidableEq

/-- What a database holds for a plan. -/
structure MigrationStatus where
  tables : List TableStatus
deriving Repr, DecidableEq

namespace MigrationStatus

/-- Whether there is anything to look for and all of it is there. -/
def tablesExist (s : MigrationStatus) : Bool := !s.tables.isEmpty && s.tables.all (·.tableExists)

def table? (s : MigrationStatus) (name : String) : Option TableStatus :=
  s.tables.find? fun t => t.name == name

def toDocument (s : MigrationStatus) : Document :=
  .map [("tables", .list (s.tables.map fun t =>
    .map [("name", .text t.name), ("exists", .bool t.tableExists), ("rows", .integer t.rows)]))]

end MigrationStatus

/-- The first table of a plan whose name is no identifier. -/
def SchemaPlan.invalidTable? (p : SchemaPlan) : Option String :=
  p.tables.find? fun name => !Identifier.isValid name

namespace Migration

variable {δ : Type}

/-- Refuses a plan with an invalid name. -/
def validate (p : SchemaPlan) : ConnectionM δ DatabaseError Unit :=
  match p.invalidTable? with
  | some name => throw (.invalidIdentifier name)
  | none => return ()

/-- Runs scripts one after the other. -/
def runScripts (e : Engine δ) (ofFault : EngineFault → DatabaseError) :
    List String → ConnectionM δ DatabaseError Unit
  | [] => return ()
  | script :: scripts => do
    (e.script script).adapt ofFault
    runScripts e ofFault scripts

/-- Creates the tables and indexes of a plan. -/
def up (e : Engine δ) (p : SchemaPlan) : ConnectionM δ DatabaseError Unit := do
  validate p
  e.transaction DatabaseError.ofFault (runScripts e .notCreated p.statements)

/-- Drops the tables of a plan, the last one first. -/
def down (e : Engine δ) (p : SchemaPlan) : ConnectionM δ DatabaseError Unit := do
  validate p
  e.transaction DatabaseError.ofFault
    (runScripts e .notDropped (p.tables.reverse.map Model.dropTable))

/-- Drops the tables of a plan and creates them again. -/
def refresh (e : Engine δ) (p : SchemaPlan) : ConnectionM δ DatabaseError Unit := do
  down e p
  up e p

/-- The status of one table. -/
def tableStatus (e : Engine δ) (name : String) : ConnectionM δ DatabaseError TableStatus := do
  if ← LocalDatabase.onEngine (e.hasTable name) then
    return ⟨name, true, ← LocalDatabase.count e name .empty⟩
  else return ⟨name, false, 0⟩

/-- The status of each table of a list. -/
def statusEach (e : Engine δ) : List String → ConnectionM δ DatabaseError (List TableStatus)
  | [] => return []
  | name :: names => do
    let first ← tableStatus e name
    return first :: (← statusEach e names)

/-- Which tables of a plan there are, and how many rows each has. -/
def status (e : Engine δ) (p : SchemaPlan) : ConnectionM δ DatabaseError MigrationStatus := do
  validate p
  return ⟨← statusEach e p.tables⟩

end Migration

end TypedTables

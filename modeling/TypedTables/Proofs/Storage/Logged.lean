import TypedTables.Database.Local
import TypedTables.Proofs.Except
import TypedTables.Storage.Scripted
/-!
# TypedTables — stores and engines with a log

Any store, any resolver and any engine can be given a log, in which every call is
written down before it is carried out. The answers and what becomes of what is
stored are those that they are without the log, so what is said of the log is said
of the calls themselves.
-/

namespace TypedTables

/-! ## Stores -/

variable {σ κ α : Type}

/-- An operation whose call is logged first. -/
def StoreM.logged (call : κ) (op : StoreM σ α) : StoreM (List κ × σ) α :=
  ExceptT.mk fun (log, s) =>
    let (answer, s) := op.run s
    (answer, log ++ [call], s)

/-- A resolver that logs its calls. -/
def Resolver.logged (r : Resolver σ) : Resolver (List ResolverCall × σ) where
  query q := StoreM.logged (.query q) (r.query q)
  bulkInsert uri rows := StoreM.logged (.bulkInsert uri rows) (r.bulkInsert uri rows)
  update uri values selection args :=
    StoreM.logged (.update uri values selection args) (r.update uri values selection args)
  delete uri selection args := StoreM.logged (.delete uri selection args) (r.delete uri selection args)

/-- What a call is answered with: rows or a number. -/
def StoreCall.Answer : StoreCall → Type
  | .select _ => Cursor
  | .insert .. => Nat
  | .update .. => Nat
  | .delete .. => Nat
  | .count .. => Nat
  | .raw _ => Cursor

namespace Storage

/-- Carries out a call. -/
def perform (store : Storage σ) : (call : StoreCall) → StoreM σ call.Answer
  | .select request => store.select request
  | .insert table rows policy => store.insert table rows policy
  | .update table values selection => store.update table values selection
  | .delete table selection => store.delete table selection
  | .count table selection => store.count table selection
  | .raw statement => store.raw statement

/-- A store that logs its calls. -/
def logged (store : Storage σ) : Storage (List StoreCall × σ) where
  kind := store.kind
  select request := StoreM.logged (.select request) (store.select request)
  insert table rows policy := StoreM.logged (.insert table rows policy) (store.insert table rows policy)
  update table values selection :=
    StoreM.logged (.update table values selection) (store.update table values selection)
  delete table selection := StoreM.logged (.delete table selection) (store.delete table selection)
  count table selection := StoreM.logged (.count table selection) (store.count table selection)
  raw statement := StoreM.logged (.raw statement) (store.raw statement)

/-- **Every call is logged, and carried out as it would be without the log.** -/
theorem run_perform_logged (store : Storage σ) (call : StoreCall) (log : List StoreCall) (s : σ) :
    (store.logged.perform call).run (log, s) =
      (((store.perform call).run s).1, log ++ [call], ((store.perform call).run s).2) := by
  cases call <;> rfl

end Storage

/-! ## Engines

The log of an engine is part of what it stores, so a transaction that is taken
back takes its statements with it. A call that makes a single statement is no
transaction: what it makes is in the log whatever the engine answers. -/

variable {δ ε : Type}

/-- An open database with a log beside it. -/
def Connection.withLog (log : List Sql) (c : Connection δ) : Connection (List Sql × δ) :=
  ⟨(log, c.database), c.lastNumber⟩

/-- A step of an engine beside a log, to which it adds some statements. -/
def ConnectionM.logged (statements : List Sql) (step : ConnectionM δ ε α) :
    ConnectionM (List Sql × δ) ε α :=
  ExceptT.mk fun c =>
    let (answer, after) := step.run ⟨c.database.2, c.lastNumber⟩
    (answer, after.withLog (c.database.1 ++ statements))

/-- An engine that logs the statements that it runs. -/
def Engine.logged (e : Engine δ) : Engine (List Sql × δ) where
  execute statement := ConnectionM.logged [statement] (e.execute statement)
  query statement := ConnectionM.logged [statement] (e.query statement)
  script text := ConnectionM.logged [.lit text] (e.script text)
  hasTable name := ConnectionM.logged [] (e.hasTable name)
  start c := e.start ⟨c.database.2, c.lastNumber⟩
  commit := ConnectionM.logged [] e.commit

/-- The statement that a call makes. An insertion may make several. -/
def StoreCall.statement? : StoreCall → Option Sql
  | .select request => some (Statement.select request)
  | .insert .. => none
  | .update table values selection => some (Statement.update table values selection)
  | .delete table selection => some (Statement.delete table selection)
  | .count table selection => some (Statement.count table selection)
  | .raw statement => some statement

namespace LocalDatabase

/-- **A call that makes one statement has it logged, and is carried out as it
would be without the log.** -/
theorem run_perform_logged {call : StoreCall} {s : Sql} (h : call.statement? = some s) (e : Engine δ)
    (log : List Sql) (c : Connection δ) :
    ((storage e.logged).perform call).run (c.withLog log) =
      ((((storage e).perform call).run c).1,
        (((storage e).perform call).run c).2.withLog (log ++ [s])) := by
  cases call with
  | insert table rows policy => nomatch h
  | select request | update table values selection | delete table selection | raw statement =>
    cases h
    rfl
  | count table selection =>
    cases h
    have hcount {δ : Type} (e : Engine δ) (c : Connection δ) :
        ((storage e).perform (.count table selection)).run c =
          (((count e table selection).run c).1.mapError .database,
            ((count e table selection).run c).2) := rfl
    have hquery : (onEngine (e.logged.query (Statement.count table selection))).run (c.withLog log) =
        (((onEngine (e.query (Statement.count table selection))).run c).1,
          ((onEngine (e.query (Statement.count table selection))).run c).2.withLog
            (log ++ [Statement.count table selection])) := rfl
    rw [hcount, hcount, count, count, run_bind_state, run_bind_state, hquery]
    rcases (onEngine (e.query (Statement.count table selection))).run c with ⟨error | cursor, after⟩
    · rfl
    -- the number is read off the answer without the engine
    · dsimp only
      rcases countOf cursor with error | n <;> rfl

/-- What a local database has run once a call is carried out. -/
def ranAfter (e : Engine δ) (call : StoreCall) (log : List Sql) (c : Connection δ) : List Sql :=
  (((storage e.logged).perform call).run (c.withLog log)).2.database.1

theorem ranAfter_of_statement? {call : StoreCall} {s : Sql} (h : call.statement? = some s) (e : Engine δ)
    (log : List Sql) (c : Connection δ) : ranAfter e call log c = log ++ [s] := by
  rw [ranAfter, run_perform_logged h]
  rfl

end LocalDatabase

end TypedTables

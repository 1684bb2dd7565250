import TypedTables.Clause.Compile
/-!
# TypedTables — joins

A second table in a query, with the condition that joins its rows to those
of the first. Cross and natural joins have none, and neither has a join
that was given none.
-/

namespace TypedTables

inductive JoinKind
  | inner
  | leftOuter
  | cross
  | natural
deriving Repr, DecidableEq

/-- The kind of join in SQL. -/
def JoinKind.sql : JoinKind → String
  | .inner => "INNER JOIN"
  | .leftOuter => "LEFT OUTER JOIN"
  | .cross => "CROSS JOIN"
  | .natural => "NATURAL JOIN"

namespace JoinKind

def name : JoinKind → String
  | .inner => "inner"
  | .leftOuter => "left_outer"
  | .cross => "cross"
  | .natural => "natural"

def all : List JoinKind := [.inner, .leftOuter, .cross, .natural]

/-- The kind of join of a given name. -/
def ofName? (s : String) : Option JoinKind := all.find? fun k => k.name == s

end JoinKind

/-- A join as it is asked for. -/
structure Join where
  kind : JoinKind
  table : String
  on : Option Clause := none
deriving Repr

/-- A join whose condition is compiled; without a condition it is empty. -/
structure CompiledJoin where
  kind : JoinKind
  table : String
  on : Sql
deriving Repr, DecidableEq

namespace Join

def compile (j : Join) : Except ClauseError CompiledJoin := do
  return ⟨j.kind, j.table, ← Clause.compileOption j.on⟩

/-- Compiles joins from first to last. -/
def compileAll : List Join → Except ClauseError (List CompiledJoin)
  | [] => return []
  | j :: js => do
    let compiled ← j.compile
    return compiled :: (← compileAll js)

end Join

/-- The join in SQL, with a blank before it. -/
def CompiledJoin.sql (j : CompiledJoin) : Sql :=
  .lit (" " ++ j.kind.sql ++ " " ++ j.table) ++
    if j.on.isEmpty then Sql.empty else .lit " ON " ++ j.on

end TypedTables

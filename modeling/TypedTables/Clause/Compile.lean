import TypedTables.Clause
import TypedTables.Sql.Fragment
import TypedTables.Text.Blank
/-!
# TypedTables — compiling clauses

`Clause.compile` turns a clause into SQL with its arguments, or finds the
first fault in it. A group inside a group is put in parentheses, so an `OR`
never leaks into an `AND`; a group of one member is that member. Faults are
looked for from left to right, and within one condition first in the column
name, then in missing values, then in the kind of the values.
-/

namespace TypedTables

/-- Why a clause has no SQL. -/
inductive ClauseError
  /-- Membership in no values at all. -/
  | emptyInList (column : String)
  /-- A group without members. -/
  | emptyGroup (connective : Connective)
  /-- The empty value compared by anything but equality or its negation. -/
  | nullComparison (column : String) (op : Operator)
  /-- An empty value as the bound of a range. -/
  | nullBound (column : String)
  /-- A value of a kind that conditions do not take. -/
  | unsupportedValue (column : String) (found : StorageClass)
  /-- A column name that is empty or blank. -/
  | emptyColumn
deriving Repr, DecidableEq

def ClauseError.message : ClauseError → String
  | .emptyInList column => "IN clause on column '" ++ column ++ "' has no values"
  | .emptyGroup connective => connective.sql ++ " clause has no children"
  | .nullComparison column op =>
    "operator " ++ op.sql ++ " on column '" ++ column ++ "' cannot compare against NULL"
  | .nullBound column => "BETWEEN on column '" ++ column ++ "' has a NULL bound"
  | .unsupportedValue column found =>
    "column '" ++ column ++ "' cannot be compared against a " ++ found.name ++ " value"
  | .emptyColumn => "clause references an empty column name"

/-- The name of the kind of a fault. -/
def ClauseError.kind : ClauseError → String
  | .emptyInList .. => "EmptyInList"
  | .emptyGroup .. => "EmptyGroup"
  | .nullComparison .. => "NullComparison"
  | .nullBound .. => "NullBound"
  | .unsupportedValue .. => "UnsupportedValue"
  | .emptyColumn => "EmptyColumn"

namespace Clause

/-- A column name has to have a character that is not blank. -/
def checkColumn (column : String) : Except ClauseError Unit :=
  if Text.allBlank column then .error .emptyColumn else .ok ()

/-- Conditions take every kind of value but a blob. -/
def checkValue (column : String) (value : Value) : Except ClauseError Unit :=
  match value with
  | .blob _ => .error (.unsupportedValue column .blob)
  | _ => .ok ()

/-- The first value that conditions do not take is the fault. -/
def checkValues (column : String) : List Value → Except ClauseError Unit
  | [] => .ok ()
  | v :: vs => do
    checkValue column v
    checkValues column vs

def compileCompare (column : String) (op : Operator) (value : Value) : Except ClauseError Sql := do
  checkColumn column
  if value.isNull then
    match op with
    | .equal => return .lit (column ++ " IS NULL")
    | .notEqual => return .lit (column ++ " IS NOT NULL")
    | op => throw (.nullComparison column op)
  else
    checkValue column value
    return .lit (column ++ " " ++ op.sql ++ " ") ++ .bind value

def compileIn (column : String) (values : List Value) : Except ClauseError Sql := do
  checkColumn column
  if values.isEmpty then throw (.emptyInList column)
  checkValues column values
  return .lit (column ++ " IN ") ++ (Sql.join ", " (values.map Sql.bind)).parens

def compileBetween (column : String) (low high : Value) (negated : Bool) :
    Except ClauseError Sql := do
  checkColumn column
  if low.isNull || high.isNull then throw (.nullBound column)
  checkValue column low
  checkValue column high
  let range : Sql := .lit (column ++ " BETWEEN ") ++ .bind low ++ .lit " AND " ++ .bind high
  return if negated then .lit "NOT " ++ range.parens else range

def compileColumns (left right : String) : Except ClauseError Sql := do
  checkColumn left
  checkColumn right
  return .lit (left ++ " = " ++ right)

mutual

/-- The SQL of a clause. -/
def compile : Clause → Except ClauseError Sql
  | compare column op value => compileCompare column op value
  | isIn column values => compileIn column values
  | between column low high negated => compileBetween column low high negated
  | columns left right => compileColumns left right
  | not clause => return .lit "NOT " ++ (← compile clause).parens
  | group connective [] => .error (.emptyGroup connective)
  | group _ [only] => compile only
  | group connective (first :: second :: rest) => do
    let parts ← compileMembers (first :: second :: rest)
    return Sql.join (" " ++ connective.sql ++ " ") parts
  | raw sql args => return ⟨sql, args⟩

/-- The SQL of the members of a group of several, each in parentheses where
it needs them. -/
def compileMembers : List Clause → Except ClauseError (List Sql)
  | [] => return []
  | c :: cs => do
    let part ← compile c
    let parts ← compileMembers cs
    return (if c.isCompound then part.parens else part) :: parts

end

/-- The SQL of a condition that may be missing. -/
def compileOption : Option Clause → Except ClauseError Sql
  | none => return Sql.empty
  | some c => compile c

/-- The SQL of several conditions that all have to hold. No condition gives
no SQL. -/
def compileAll : List Clause → Except ClauseError Sql
  | [] => return Sql.empty
  | [only] => compile only
  | many => return Sql.join " AND " (← compileMembers many)

end Clause

end TypedTables

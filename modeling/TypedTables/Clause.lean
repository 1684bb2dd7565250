import TypedTables.Value
/-!
# TypedTables — clauses

A `Clause` is a tree of conditions on the columns of a row: comparisons,
membership, ranges, equalities between columns, negation, conjunction and
disjunction, and SQL text taken as it is. Trees are built per query and
compiled once.
-/

namespace TypedTables

/-- Comparison operators. -/
inductive Operator
  | equal
  | notEqual
  | greater
  | greaterOrEqual
  | less
  | lessOrEqual
  | like
deriving Repr, DecidableEq

/-- The operator in SQL. -/
def Operator.sql : Operator → String
  | .equal => "="
  | .notEqual => "!="
  | .greater => ">"
  | .greaterOrEqual => ">="
  | .less => "<"
  | .lessOrEqual => "<="
  | .like => "LIKE"

namespace Operator

def name : Operator → String
  | .equal => "EQUAL"
  | .notEqual => "NOT_EQUAL"
  | .greater => "GREATER"
  | .greaterOrEqual => "GREATER_OR_EQUAL"
  | .less => "LESS"
  | .lessOrEqual => "LESS_OR_EQUAL"
  | .like => "LIKE"

def all : List Operator := [.equal, .notEqual, .greater, .greaterOrEqual, .less, .lessOrEqual, .like]

/-- The operator of a given name. -/
def ofName? (s : String) : Option Operator := all.find? fun op => op.name == s

end Operator

/-- The two ways to join conditions into one. -/
inductive Connective
  | and
  | or
deriving Repr, DecidableEq

/-- The connective in SQL. -/
def Connective.sql : Connective → String
  | .and => "AND"
  | .or => "OR"

/-- A condition on rows. -/
inductive Clause
  /-- A column compared with a value. Equality with the empty value, and its
  negation, ask whether the column is empty. -/
  | compare (column : String) (op : Operator) (value : Value)
  /-- A column is one of some values. -/
  | isIn (column : String) (values : List Value)
  /-- A column lies between two bounds, or does not. -/
  | between (column : String) (low high : Value) (negated : Bool)
  /-- Two columns are equal. -/
  | columns (left right : String)
  | not (clause : Clause)
  /-- All of some conditions, or one of them. -/
  | group (connective : Connective) (children : List Clause)
  /-- SQL text, taken as it is. -/
  | raw (sql : String) (args : List Value)
deriving Repr, Inhabited

namespace Clause

def eq (column : String) (value : Value) : Clause := compare column .equal value

def isNull (column : String) : Clause := compare column .equal .null

def isNotNull (column : String) : Clause := compare column .notEqual .null

def and (children : List Clause) : Clause := group .and children

def or (children : List Clause) : Clause := group .or children

/-- The clause that a chain of groups of one member each ends in. Such a
group says what its member says. -/
def core : Clause → Clause
  | group _ [only] => only.core
  | c => c

/-- Whether the clause needs parentheses inside a group: it ends in a group
of several members, or in raw text that may be one. -/
def isCompound (c : Clause) : Bool :=
  match c.core with
  | group _ children => 1 < children.length
  | raw .. => true
  | _ => false

end Clause

end TypedTables

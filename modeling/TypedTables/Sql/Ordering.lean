/-!
# TypedTables — ordering and limits

How the rows of a query are ordered and which of them are returned.
-/

namespace TypedTables

inductive Direction
  | ascending
  | descending
  /-- Shuffled rows; the column does not matter then. -/
  | random
deriving Repr, DecidableEq

/-- The collating sequence of an ordering term. -/
inductive Collation
  | none
  | binary
  | noCase
  | rTrim
deriving Repr, DecidableEq

/-- The collation in SQL, where one was chosen. -/
def Collation.sql? : Collation → Option String
  | .none => Option.none
  | .binary => some "BINARY"
  | .noCase => some "NOCASE"
  | .rTrim => some "RTRIM"

/-- One term of an ordering. -/
structure OrderTerm where
  column : String
  direction : Direction
  collation : Collation := .none
deriving Repr, DecidableEq

namespace OrderTerm

/-- The term in SQL. -/
def sql (t : OrderTerm) : String :=
  let collated :=
    match t.collation.sql? with
    | some c => t.column ++ " COLLATE " ++ c
    | none => t.column
  match t.direction with
  | .random => "RANDOM()"
  | .descending => collated ++ " DESC"
  | .ascending => collated ++ " ASC"

/-- The terms in SQL, or nothing where there are none. -/
def listSql? (terms : List OrderTerm) : Option String :=
  if terms.isEmpty then none else some (String.intercalate ", " (terms.map sql))

end OrderTerm

/-- How many rows to return, and how many to pass over before. -/
structure Limit where
  count : Nat
  offset : Nat := 0
deriving Repr, DecidableEq

/-- The limit in SQL. An offset of zero is not written. -/
def Limit.sql (l : Limit) : String :=
  if l.offset = 0 then "LIMIT " ++ toString l.count
  else "LIMIT " ++ toString l.count ++ " OFFSET " ++ toString l.offset

end TypedTables

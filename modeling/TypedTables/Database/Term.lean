import TypedTables.Database.Comparison
import TypedTables.Database.Error
/-!
# TypedTables — terms of SQL

A term is what a statement computes for a row: a condition, a value to
write, a column of a result. It is read with the names of columns in it;
resolving the names against the columns of a query gives a term with their
places. A term is evaluated for one row, the arguments of the statement,
and the number of rows of the group that the row stands for.
-/

namespace TypedTables

/-- The comparisons of two values. -/
inductive Relation
  | equal
  | notEqual
  | less
  | lessOrEqual
  | greater
  | greaterOrEqual
deriving Repr, DecidableEq

/-- The relation from the other side. -/
def Relation.flip : Relation → Relation
  | .equal => .equal
  | .notEqual => .notEqual
  | .less => .greater
  | .lessOrEqual => .greaterOrEqual
  | .greater => .less
  | .greaterOrEqual => .lessOrEqual

/-- Whether two cells of the given order stand in the relation. -/
def Relation.holds : Relation → Ordering → Bool
  | .equal, o => o == .eq
  | .notEqual, o => o != .eq
  | .less, o => o == .lt
  | .lessOrEqual, o => o != .gt
  | .greater, o => o == .gt
  | .greaterOrEqual, o => o != .lt

/-- A term over references to columns. -/
inductive Term (κ : Type)
  | literal (value : Value)
  /-- An argument, by its position. -/
  | argument (index : Nat)
  | column (reference : κ)
  /-- The number of rows of the group. -/
  | rowCount
  /-- A value as a text. -/
  | asText (a : Term κ)
  | compare (relation : Relation) (a b : Term κ)
  /-- Whether two values are the same, empty ones included. -/
  | same (a b : Term κ)
  /-- Whether a value fits a pattern. -/
  | like (a pattern : Term κ)
  | not (a : Term κ)
  | and (a b : Term κ)
  | or (a b : Term κ)
  /-- A condition that is written in short: a list of values, a range, or
  that a value is not empty. -/
  | short (a : Term κ)
deriving Repr, DecidableEq

/-- The name of a column, perhaps with that of its table. -/
structure ColumnName where
  table : Option String
  name : String
deriving Repr, DecidableEq

/-- The place of a column in a row, and its affinity. -/
structure ColumnPlace where
  index : Nat
  affinity : ColumnAffinity
deriving Repr, DecidableEq

namespace Term

variable {κ κ' : Type}

/-- The condition that every row meets. -/
def always : Term κ := literal (.ofBool true)

/-- The term with terms in place of its references. -/
def resolve (f : κ → Except EngineFault (Term κ')) : Term κ → Except EngineFault (Term κ')
  | literal v => return literal v
  | argument i => return argument i
  | column c => f c
  | rowCount => return rowCount
  | asText a => return asText (← a.resolve f)
  | compare r a b => return compare r (← a.resolve f) (← b.resolve f)
  | same a b => return same (← a.resolve f) (← b.resolve f)
  | like a b => return like (← a.resolve f) (← b.resolve f)
  | not a => return not (← a.resolve f)
  | and a b => return and (← a.resolve f) (← b.resolve f)
  | or a b => return or (← a.resolve f) (← b.resolve f)
  | short a => return short (← a.resolve f)

/-- Whether the term speaks of a group of rows. -/
def isAggregate : Term κ → Bool
  | rowCount => true
  | literal _ | argument _ | column _ => false
  | asText a | not a | short a => a.isAggregate
  | compare _ a b | same a b | like a b | and a b | or a b => a.isAggregate || b.isAggregate

/-- The affinity of what a term computes. -/
def affinity? : Term ColumnPlace → Option ColumnAffinity
  | column c => some c.affinity
  | asText _ => some .text
  | _ => none

/-- A value as a text. Bytes are read as the characters they stand for. -/
def textOf : Value → Except EngineFault Value
  | .blob bytes =>
    match Text.decode bytes with
    | .ok s => .ok (.text s)
    | .error fault => .error (.unreadableText fault)
  | v => .ok (Cell.toText v)

/-- The value of a term for a row of cells. -/
def eval (args : List Value) (groupSize : Nat) (cells : List Value) :
    Term ColumnPlace → Except EngineFault Value
  | literal v => return v
  | argument i => return args.getD i .null
  | column c => return cells.getD c.index .null
  | rowCount => return .integer (Int64.ofNat groupSize)
  | asText a => do textOf (← a.eval args groupSize cells)
  | compare r a b => do
    let (x, y) := Cell.alike (a.affinity?, ← a.eval args groupSize cells)
      (b.affinity?, ← b.eval args groupSize cells)
    return Truth.toValue ((Cell.order? x y).map r.holds)
  | same a b => do
    let (x, y) := Cell.alike (a.affinity?, ← a.eval args groupSize cells)
      (b.affinity?, ← b.eval args groupSize cells)
    return .ofBool (Cell.same x y)
  | like a b => do
    let x ← a.eval args groupSize cells
    return Truth.toValue (Cell.like? (← b.eval args groupSize cells) x)
  | not a => do return Truth.toValue (Truth.not (Truth.ofValue (← a.eval args groupSize cells)))
  | and a b => do
    let x ← a.eval args groupSize cells
    return Truth.toValue (Truth.and (Truth.ofValue x) (Truth.ofValue (← b.eval args groupSize cells)))
  | or a b => do
    let x ← a.eval args groupSize cells
    return Truth.toValue (Truth.or (Truth.ofValue x) (Truth.ofValue (← b.eval args groupSize cells)))
  | short a => a.eval args groupSize cells

/-- Whether a condition is true of a row. -/
def accepts (args : List Value) (groupSize : Nat) (cells : List Value) (condition : Term ColumnPlace) :
    Except EngineFault Bool := do
  return Truth.ofValue (← condition.eval args groupSize cells) == some true

end Term

end TypedTables

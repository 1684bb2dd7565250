import Mathlib.Tactic.Common
import TypedTables.Clause
import TypedTables.Database.Term
import TypedTables.Proofs.Expression.Reader
/-!
# TypedTables — what conditions say of a row

The truth value of an expression on a row (`Expression.truth`), once a value
stands in each of its holes (`Expression.bind`), and the truth value that a
clause is meant to have on the row (`Clause.truth`), which is given without
any text. Both are three-valued, and both are over every row: what its
columns hold, and what functions and arithmetic make of values, is given by
a `Record`.
-/

namespace TypedTables

/-! ## Truth values -/

namespace Truth

/-- True if all are, false as soon as one is. -/
def allOf (ts : List (Option Bool)) : Option Bool := ts.foldr and (some true)

/-- False if all are, true as soon as one is. -/
def anyOf (ts : List (Option Bool)) : Option Bool := ts.foldr or (some false)

theorem ofValue_toValue (t : Option Bool) : ofValue (toValue t) = t := by
  rcases t with _ | _ | _ <;> rfl

theorem ofValue_ofBool (b : Bool) : ofValue (.ofBool b) = some b := by
  cases b <;> rfl

theorem and_assoc (a b c : Option Bool) : and (and a b) c = and a (and b c) := by
  rcases a with _ | _ | _ <;> rcases b with _ | _ | _ <;> rcases c with _ | _ | _ <;> rfl

theorem or_assoc (a b c : Option Bool) : or (or a b) c = or a (or b c) := by
  rcases a with _ | _ | _ <;> rcases b with _ | _ | _ <;> rcases c with _ | _ | _ <;> rfl

theorem and_true (a : Option Bool) : and a (some true) = a := by
  rcases a with _ | _ | _ <;> rfl

theorem or_false (a : Option Bool) : or a (some false) = a := by
  rcases a with _ | _ | _ <;> rfl

end Truth

namespace Connective

/-- The operator that a connective is. -/
def op : Connective → BinaryOp
  | .and => .and
  | .or => .or

/-- The truth value of two conditions together. -/
def both : Connective → Option Bool → Option Bool → Option Bool
  | .and => Truth.and
  | .or => Truth.or

/-- The truth value of some conditions together. -/
def together : Connective → List (Option Bool) → Option Bool
  | .and => Truth.allOf
  | .or => Truth.anyOf

theorem together_cons (k : Connective) (a : Option Bool) (ts : List (Option Bool)) :
    k.together (a :: ts) = k.both a (k.together ts) := by
  cases k <;> rfl

theorem together_singleton (k : Connective) (a : Option Bool) : k.together [a] = a := by
  cases k
  · exact Truth.and_true a
  · exact Truth.or_false a

theorem together_first_two (k : Connective) (a b : Option Bool) (ts : List (Option Bool)) :
    k.together (k.both a b :: ts) = k.together (a :: b :: ts) := by
  rw [together_cons, together_cons, together_cons]
  cases k
  · exact Truth.and_assoc _ _ _
  · exact Truth.or_assoc _ _ _

end Connective

/-! ## Rows -/

/-- An operand of a comparison: its value, and its affinity if it is a
column. -/
abbrev Operand := Option ColumnAffinity × Value

/-- A row as conditions see it. -/
structure Record where
  /-- What a column holds, by its name and those of what it belongs to. -/
  column : List String → Operand
  /-- What a function makes of its arguments. -/
  call : String → List Value → Value
  /-- What a function makes of all rows. -/
  callAll : String → Value
  /-- What the operators that are no connectives make of two values. -/
  arithmetic : BinaryOp → Value → Value → Value

namespace Operator

/-- The relation of cells that a comparison asks for. A pattern is no
relation of this kind. -/
def relation? : Operator → Option Relation
  | .equal => some .equal
  | .notEqual => some .notEqual
  | .greater => some .greater
  | .greaterOrEqual => some .greaterOrEqual
  | .less => some .less
  | .lessOrEqual => some .lessOrEqual
  | .like => none

/-- How two operands compare. -/
def compares (op : Operator) (a b : Operand) : Option Bool :=
  match op.relation? with
  | some r => (Cell.order? (Cell.alike a b).1 (Cell.alike a b).2).map r.holds
  | none => Cell.like? b.2 a.2

end Operator

namespace Operand

/-- Whether an operand is one of some values. -/
def isOneOf (a : Operand) (values : List Value) : Option Bool :=
  Truth.anyOf (values.map fun v => Operator.equal.compares a (none, v))

/-- Whether an operand lies between two others. -/
def isBetween (a low high : Operand) : Option Bool :=
  Truth.and (Operator.greaterOrEqual.compares a low) (Operator.lessOrEqual.compares a high)

end Operand

/-! ## Expressions -/

namespace Expression

mutual

/-- The number of placeholders in an expression. -/
def holes : Expression → Nat
  | literal _ | column _ | callAll _ => 0
  | hole => 1
  | call _ items => holesOf items
  | negative a | isNull a | not a => a.holes
  | binary _ a b | compare _ a b => a.holes + b.holes
  | isIn a items => a.holes + holesOf items
  | between a low high => a.holes + (low.holes + high.holes)

def holesOf : List Expression → Nat
  | [] => 0
  | e :: es => e.holes + holesOf es

end

mutual

/-- The expression with values in its holes, from left to right. -/
def bind (args : List Value) : Expression → Expression
  | literal v => literal v
  | hole => literal (args.headD .null)
  | column path => column path
  | call f items => call f (bindEach args items)
  | callAll f => callAll f
  | negative a => negative (a.bind args)
  | binary op a b => binary op (a.bind args) (b.bind (args.drop a.holes))
  | compare op a b => compare op (a.bind args) (b.bind (args.drop a.holes))
  | isNull a => isNull (a.bind args)
  | isIn a items => isIn (a.bind args) (bindEach (args.drop a.holes) items)
  | between a low high =>
    between (a.bind args) (low.bind (args.drop a.holes)) (high.bind (args.drop (a.holes + low.holes)))
  | not a => not (a.bind args)

def bindEach (args : List Value) : List Expression → List Expression
  | [] => []
  | e :: es => e.bind args :: bindEach (args.drop e.holes) es

end

/-- The affinity of an expression: only a column has one. -/
def affinity? (row : Record) : Expression → Option ColumnAffinity
  | column path => (row.column path).1
  | _ => none

mutual

/-- The value of an expression on a row. A hole without a value is empty. -/
def value (row : Record) : Expression → Value
  | literal v => v
  | hole => .null
  | column path => (row.column path).2
  | call f items => row.call f (values row items)
  | callAll f => row.callAll f
  | negative a => Cell.negate (a.value row)
  | binary op a b =>
    match op with
    | .and => Truth.toValue (Truth.and (Truth.ofValue (a.value row)) (Truth.ofValue (b.value row)))
    | .or => Truth.toValue (Truth.or (Truth.ofValue (a.value row)) (Truth.ofValue (b.value row)))
    | op => row.arithmetic op (a.value row) (b.value row)
  | compare op a b =>
    Truth.toValue (op.compares (a.affinity? row, a.value row) (b.affinity? row, b.value row))
  | isNull a => .ofBool (a.value row).isNull
  | isIn a items => Truth.toValue (Operand.isOneOf (a.affinity? row, a.value row) (values row items))
  | between a low high =>
    Truth.toValue (Operand.isBetween (a.affinity? row, a.value row)
      (low.affinity? row, low.value row) (high.affinity? row, high.value row))
  | not a => Truth.toValue (Truth.not (Truth.ofValue (a.value row)))

def values (row : Record) : List Expression → List Value
  | [] => []
  | e :: es => e.value row :: values row es

end

/-- The truth value of an expression on a row. -/
def truth (row : Record) (e : Expression) : Option Bool := Truth.ofValue (e.value row)

/-- What an expression is as one side of a comparison. -/
def operand (row : Record) (e : Expression) : Operand := (e.affinity? row, e.value row)

section

variable (row : Record) (a b : Expression)

theorem truth_not : (not a).truth row = Truth.not (a.truth row) := Truth.ofValue_toValue _

theorem truth_binary (k : Connective) :
    (binary k.op a b).truth row = k.both (a.truth row) (b.truth row) := by
  cases k <;> exact Truth.ofValue_toValue _

theorem truth_compare (op : Operator) :
    (compare op a b).truth row = op.compares (a.operand row) (b.operand row) :=
  Truth.ofValue_toValue _

theorem truth_isNull : (isNull a).truth row = some (a.value row).isNull := Truth.ofValue_ofBool _

theorem truth_isIn (items : List Expression) :
    (isIn a items).truth row = (a.operand row).isOneOf (values row items) := Truth.ofValue_toValue _

theorem truth_between (low high : Expression) :
    (between a low high).truth row = (a.operand row).isBetween (low.operand row) (high.operand row) :=
  Truth.ofValue_toValue _

end

end Expression

/-! ## Clauses -/

/-- The parts of a name with points in it. -/
def columnPath (column : String) : List String := (column.toList.splitOn '.').map String.ofList

namespace Clause

mutual

/-- **What a clause says of a row.** Equality with the empty value asks
whether a column is empty, and raw text says what it is read as. -/
def truth (row : Record) : Clause → Option Bool
  | compare column .equal .null => some (row.column (columnPath column)).2.isNull
  | compare column .notEqual .null => some !(row.column (columnPath column)).2.isNull
  | compare column op value => op.compares (row.column (columnPath column)) (none, value)
  | isIn column values => Operand.isOneOf (row.column (columnPath column)) values
  | between column low high negated =>
    let inside := Operand.isBetween (row.column (columnPath column)) (none, low) (none, high)
    if negated then Truth.not inside else inside
  | columns left right =>
    Operator.equal.compares (row.column (columnPath left)) (row.column (columnPath right))
  | not clause => Truth.not (clause.truth row)
  | group connective children => connective.together (truths row children)
  | raw sql args => (Expression.ofText? sql).bind fun e => (e.bind args).truth row

def truths (row : Record) : List Clause → List (Option Bool)
  | [] => []
  | c :: cs => c.truth row :: truths row cs

end

/-- A bare name: a word that the grammar does not take for anything else. -/
def IsName : List Char → Prop
  | [] => False
  | c :: w => Token.isWordStart c = true ∧ w.all Token.isWordPart = true ∧
      Lexeme.ofWord? (String.ofList (c :: w)) = some (.name (String.ofList (c :: w)))

instance : DecidablePred IsName
  | [] => inferInstanceAs (Decidable False)
  | c :: _ => inferInstanceAs (Decidable (Token.isWordStart c = true ∧ _ ∧ _))

/-- A name of a column: bare names with points between them. -/
def IsColumnName (column : String) : Prop := ∀ name ∈ column.toList.splitOn '.', IsName name

instance (column : String) : Decidable (IsColumnName column) := List.decidableBAll _ _

mutual

/-- Whether everything in a clause that is taken as it is can be read:
columns are named by names, and raw text is a condition with an argument for
each of its placeholders. -/
def IsReadable : Clause → Prop
  | compare column _ _ | isIn column _ | between column _ _ _ => IsColumnName column
  | columns left right => IsColumnName left ∧ IsColumnName right
  | not clause => clause.IsReadable
  | group _ children => AreReadable children
  | raw sql args => ∃ e, Parses sql e ∧ e.holes = args.length

def AreReadable : List Clause → Prop
  | [] => True
  | c :: cs => c.IsReadable ∧ AreReadable cs

end

end Clause

end TypedTables

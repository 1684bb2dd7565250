import TypedTables.Decimal.Layout
import TypedTables.Schema.SemanticType
/-!
# TypedTables — column defaults

The literal a column takes when a row does not write it.
-/

namespace TypedTables

inductive DefaultValue
  | bool (b : Bool)
  | integer (n : Int64)
  | real (x : Double)
  | text (s : String)
deriving Repr, DecidableEq

namespace DefaultValue

/-- Reals in SQL literals never have an exponent. -/
def realLayout : RealLayout :=
  { plain := none, positiveExponent := "", tie := .away, nan := "NaN", infinity := "inf" }

/-- A text with its single quotes doubled. -/
def doubleQuotes (s : String) : String :=
  String.ofList (s.toList.flatMap fun c => if c = '\'' then ['\'', '\''] else [c])

/-- The literal in SQL. Truth values are the integers one and zero. -/
def sql : DefaultValue → String
  | .bool b => if b then "1" else "0"
  | .integer n => toString n.toInt
  | .real x => realLayout.render x
  | .text s => "'" ++ doubleQuotes s ++ "'"

/-- Whether the literal can stand in a column of the type. A real that is not
finite has no literal, and an integer has to fit the type. -/
def fits : DefaultValue → SemanticType → Bool
  | .bool _, .boolean => true
  | .integer n, .boolean => n == 0 || n == 1
  | .integer n, .integer => Int32.minValue.toInt ≤ n.toInt && n.toInt ≤ Int32.maxValue.toInt
  | .integer _, .long | .integer _, .real => true
  | .real x, .real => x.isFinite
  | .text _, .text | .text _, .uri => true
  | _, _ => false

end DefaultValue

end TypedTables

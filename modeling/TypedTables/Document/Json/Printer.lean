import TypedTables.Decimal.Layout
import TypedTables.Document
/-!
# TypedTables — writing JSON

Two ways to write a document as JSON: compact, without any blank, for
fingerprints, and pretty, with one member or item a line, for readers. Both
write strings and numbers alike.
-/

namespace TypedTables

namespace Json

/-- Reals keep a point or an exponent, so that they read back as reals. -/
def realLayout : RealLayout :=
  { plain := some (-5, 15), positiveExponent := "+", tie := .toEven, nan := "null", infinity := "null" }

/-- A real in JSON; one that is not finite has no number. -/
def realText (x : Double) : String := if x.isFinite then realLayout.render x else "null"

def hexDigit (n : Nat) : Char := Nat.digitChar (n % 16)

/-- A character as it stands inside a JSON string. -/
def escapeChar (c : Char) : List Char :=
  match c with
  | '"' => ['\\', '"']
  | '\\' => ['\\', '\\']
  | '\n' => ['\\', 'n']
  | '\r' => ['\\', 'r']
  | '\t' => ['\\', 't']
  | c =>
    if c.toNat = 8 then ['\\', 'b']
    else if c.toNat = 12 then ['\\', 'f']
    else if c.toNat < 32 then ['\\', 'u', '0', '0', hexDigit (c.toNat / 16), hexDigit c.toNat]
    else [c]

/-- A string in JSON. -/
def stringText (s : String) : String := String.ofList ('"' :: s.toList.flatMap escapeChar ++ ['"'])

/-- A scalar in JSON. -/
def scalarText : Document → String
  | .null => "null"
  | .bool b => if b then "true" else "false"
  | .integer n => toString n
  | .real x => realText x
  | .text s | .plain s | .tagged _ _ s => stringText s
  | .list _ | .map _ | .unreadable => ""

mutual

/-- The document without any blank. -/
def compact : Document → String
  | .list items => "[" ++ String.intercalate "," (compactItems items) ++ "]"
  | .map members => "\x7b" ++ String.intercalate "," (compactMembers members) ++ "\x7d"
  | d => scalarText d

def compactItems : List Document → List String
  | [] => []
  | d :: ds => compact d :: compactItems ds

def compactMembers : List (String × Document) → List String
  | [] => []
  | (key, d) :: ds => (stringText key ++ ":" ++ compact d) :: compactMembers ds

end

/-- A line break and the indentation of a level. -/
def newline (level : Nat) : String := "\n" ++ String.ofList (List.replicate (2 * level) ' ')

mutual

/-- The document with one item or member a line, indented by two blanks a
level. An empty list or map stays on its line. -/
def prettyAt (level : Nat) : Document → String
  | .list [] => "[]"
  | .list (d :: ds) =>
    let items := prettyItems (level + 1) (d :: ds)
    "[" ++ newline (level + 1) ++ String.intercalate ("," ++ newline (level + 1)) items ++
      newline level ++ "]"
  | .map [] => "\x7b\x7d"
  | .map (d :: ds) =>
    let members := prettyMembers (level + 1) (d :: ds)
    "\x7b" ++ newline (level + 1) ++ String.intercalate ("," ++ newline (level + 1)) members ++
      newline level ++ "\x7d"
  | d => scalarText d

def prettyItems (level : Nat) : List Document → List String
  | [] => []
  | d :: ds => prettyAt level d :: prettyItems level ds

def prettyMembers (level : Nat) : List (String × Document) → List String
  | [] => []
  | (key, d) :: ds => (stringText key ++ ": " ++ prettyAt level d) :: prettyMembers level ds

end

/-- The document with one item or member a line. -/
def pretty (d : Document) : String := prettyAt 0 d

end Json

end TypedTables

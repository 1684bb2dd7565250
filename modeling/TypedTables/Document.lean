import TypedTables.Decimal.Binary
/-!
# TypedTables — documents

A `Document` is a tree of lists, maps and scalars, as it is read from a JSON
or a YAML text and as metadata is written to one. A scalar that a YAML text
leaves unquoted has no type of its own yet: it is kept as `plain` text, and
what it is depends on what is expected of it. The same holds for a scalar
with a tag, which may ask for a type.
-/

namespace TypedTables

/-- How a scalar is written: without quotes, in quotes, or line by line. -/
inductive ScalarStyle
  | plain
  | quoted
  | literal
deriving Repr, DecidableEq

inductive Document
  | null
  | bool (b : Bool)
  | integer (n : Int)
  | real (x : Double)
  | text (s : String)
  /-- Unquoted text, whose type is not decided yet. -/
  | plain (s : String)
  /-- Text with a tag in front. -/
  | tagged (tag : String) (style : ScalarStyle) (s : String)
  | list (items : List Document)
  | map (members : List (String × Document))
  /-- A part that nothing can be read from: a map with a key that is no
  text, or a node that contains itself. -/
  | unreadable
deriving Repr, Inhabited

end TypedTables

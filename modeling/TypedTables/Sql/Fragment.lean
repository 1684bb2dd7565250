import TypedTables.Value
/-!
# TypedTables — SQL fragments

A `Sql` is a piece of SQL text together with the values bound to its `?`
placeholders, left to right. Fragments are only ever put together end to
end, text to text and arguments to arguments, so the order of the arguments
is the order of the placeholders by construction.
-/

namespace TypedTables

/-- SQL text and the arguments of its placeholders. -/
structure Sql where
  text : String
  args : List Value
deriving Repr, DecidableEq, Inhabited

namespace Sql

def empty : Sql := ⟨"", []⟩

/-- Text without arguments. -/
def lit (text : String) : Sql := ⟨text, []⟩

/-- One placeholder, bound to a value. -/
def bind (value : Value) : Sql := ⟨"?", [value]⟩

/-- One fragment after the other. -/
def append (a b : Sql) : Sql := ⟨a.text ++ b.text, a.args ++ b.args⟩

instance : Append Sql := ⟨append⟩

/-- Fragments one after the other, with a text between each two. -/
def join (separator : String) (parts : List Sql) : Sql :=
  ⟨String.intercalate separator (parts.map text), parts.flatMap args⟩

/-- Fragments one after the other. -/
def concat (parts : List Sql) : Sql := join "" parts

/-- The fragment in parentheses. -/
def parens (a : Sql) : Sql := lit "(" ++ a ++ lit ")"

/-- Whether the fragment has no text. Such a condition is left out. -/
def isEmpty (a : Sql) : Bool := a.text.isEmpty

@[simp] theorem text_append (a b : Sql) : (a ++ b).text = a.text ++ b.text := rfl

@[simp] theorem args_append (a b : Sql) : (a ++ b).args = a.args ++ b.args := rfl

end Sql

end TypedTables

/-!
# TypedTables — reserved words

The words of SQL that cannot stand as a name without quotes, and those that
cannot where a term can stand. Other words of SQL are names wherever the
grammar leaves room for one. Words and names count as the same if they differ
in the case of ASCII letters only.
-/

namespace TypedTables

namespace Keyword

/-- A word in lower case. -/
def fold (s : String) : String := String.ofList (s.toList.map Char.toLower)

/-- Whether two names are the same. -/
def same (a b : String) : Bool := fold a == fold b

def reserved : List String :=
  ["add", "all", "alter", "and", "as", "autoincrement", "between", "case", "check", "collate",
    "commit", "constraint", "create", "default", "deferrable", "delete", "distinct", "drop", "else",
    "escape", "except", "exists", "foreign", "from", "group", "having", "in", "index", "insert",
    "intersect", "into", "is", "isnull", "join", "limit", "not", "nothing", "notnull", "null", "on",
    "or", "order", "primary", "references", "returning", "select", "set", "table", "then", "to",
    "transaction", "union", "unique", "update", "using", "values", "when", "where"]

/-- Whether a word cannot stand as a name. -/
def isReserved (word : String) : Bool := reserved.contains (fold word)

/-- Words that are names where nothing but a name can stand. Where a term can
stand they start one. -/
def ofTerms : List String := ["cast", "current_date", "current_time", "current_timestamp", "raise"]

/-- Whether a word starts a term of its own. -/
def startsTerm (word : String) : Bool := ofTerms.contains (fold word)

end Keyword

end TypedTables

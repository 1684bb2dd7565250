import Mathlib.Tactic.Common
import TypedTables.Database.Keyword
import TypedTables.Database.Token
import TypedTables.Proofs.Database.Scan
import TypedTables.Schema.Table
/-!
# TypedTables — the grammar of table definitions

A table as it is defined in SQL, how its definition is written, and a reader for
the text that knows nothing of how it was written. Characters are gathered to
lexemes, one after the other; what stands between the outer parentheses is cut
at its commas into clauses; and a clause is a column, a foreign key or a group
of columns that are unique together. All of the text has to be read, and every
character counts, those without a number included.
-/

namespace TypedTables

/-- A piece of the text of a definition. -/
inductive TableLexeme
  /-- A keyword, a name or a number. -/
  | word (text : String)
  /-- A text in quotes, by what it stands for. -/
  | quoted (text : String)
  | opens
  | closes
  | comma
deriving Repr, DecidableEq

namespace TableLexeme

/-- What the characters before have begun, with those taken so far in reverse. -/
inductive Begun
  | nothing
  | word (taken : List Char)
  | text (taken : List Char)
  /-- A text behind a quote, which ends it unless it is doubled. -/
  | quote (taken : List Char)

/-- Whether a character ends a word. -/
def endsWord (c : Char) : Bool := Token.isBlank c || c == '(' || c == ')' || c == ',' || c == '\x27'

/-- What a character is, or begins, where nothing was begun. -/
def start (c : Char) : List TableLexeme × Begun :=
  if Token.isBlank c then ([], .nothing)
  else if c = '(' then ([.opens], .nothing)
  else if c = ')' then ([.closes], .nothing)
  else if c = ',' then ([.comma], .nothing)
  else if c = '\x27' then ([], .text [])
  else ([], .word [c])

/-- The lexemes that are done with one more character, and what is begun then. -/
def step : Begun → Char → List TableLexeme × Begun
  | .nothing, c => start c
  | .word taken, c =>
    if endsWord c then (.word (String.ofList taken.reverse) :: (start c).1, (start c).2)
    else ([], .word (c :: taken))
  | .text taken, c => if c = '\x27' then ([], .quote taken) else ([], .text (c :: taken))
  | .quote taken, c =>
    if c = '\x27' then ([], .text (c :: taken))
    else (.quoted (String.ofList taken.reverse) :: (start c).1, (start c).2)

/-- The lexemes that are done at the end. A text without its closing quote is none. -/
def finish : Begun → Option (List TableLexeme)
  | .nothing => some []
  | .word taken => some [.word (String.ofList taken.reverse)]
  | .text _ => none
  | .quote taken => some [.quoted (String.ofList taken.reverse)]

/-- The lexemes of some characters, and of what was begun before them. -/
def readFrom (begun : Begun) : List Char → Option (List TableLexeme)
  | [] => finish begun
  | c :: cs => (readFrom (step begun c).2 cs).map ((step begun c).1 ++ ·)

/-- The lexemes of some characters, if all quotes are closed. -/
def read (cs : List Char) : Option (List TableLexeme) := readFrom .nothing cs

end TableLexeme

/-- A default as it is written: a number as it is spelled, or a text. -/
inductive WrittenDefault
  | number (spelling : String)
  | text (content : String)
deriving Repr, DecidableEq

/-- A column as it is written. -/
structure WrittenColumn where
  name : String
  affinity : Affinity
  isPrimaryKey : Bool
  isAutoIncrement : Bool
  isNotNull : Bool
  isUnique : Bool
  defaultValue : Option WrittenDefault
deriving Repr, DecidableEq

/-- A part of a definition as it is written. -/
inductive WrittenClause
  | column (column : WrittenColumn)
  | foreignKey (key : ForeignKey)
  | unique (columns : List String)
deriving Repr, DecidableEq

/-- The definition of a table as it is written. -/
structure WrittenTable where
  ifNotExists : Bool
  name : String
  clauses : List WrittenClause
deriving Repr, DecidableEq

/-- The definition of an index on a column as it is written. -/
structure WrittenIndex where
  ifNotExists : Bool
  name : String
  table : String
  column : String
deriving Repr, DecidableEq

/-! ## How a definition is written -/

/-- A default in SQL. A quote in a text is doubled. -/
def WrittenDefault.sql : WrittenDefault → String
  | number spelling => spelling
  | text content => String.ofList ('\x27' :: (Token.doubled content.toList ++ ['\x27']))

/-- A column in SQL: its name, its type, and its constraints in their order. -/
def WrittenColumn.sql (c : WrittenColumn) : String :=
  String.intercalate " " ([c.name, c.affinity.sql] ++
    (if c.isPrimaryKey then ["PRIMARY", "KEY"] else []) ++
    (if c.isPrimaryKey && c.isAutoIncrement then ["AUTOINCREMENT"] else []) ++
    (if c.isNotNull then ["NOT", "NULL"] else []) ++
    (if c.isUnique then ["UNIQUE"] else []) ++
    match c.defaultValue with
    | some d => ["DEFAULT", d.sql]
    | none => [])

namespace WrittenClause

def sql : WrittenClause → String
  | column c => c.sql
  | foreignKey fk =>
    "FOREIGN KEY (" ++ fk.localColumn ++ ") REFERENCES " ++ fk.targetTable ++ "(" ++ fk.targetColumn ++ ")"
  | unique columns => "UNIQUE (" ++ String.intercalate ", " columns ++ ")"

theorem sql_column (c : WrittenColumn) : (column c).sql = c.sql := rfl

theorem sql_foreignKey (fk : ForeignKey) : (foreignKey fk).sql =
    "FOREIGN KEY (" ++ fk.localColumn ++ ") REFERENCES " ++ fk.targetTable ++ "(" ++ fk.targetColumn ++ ")" := rfl

theorem sql_unique (columns : List String) :
    (unique columns).sql = "UNIQUE (" ++ String.intercalate ", " columns ++ ")" := rfl

def column? : WrittenClause → Option WrittenColumn
  | column c => some c
  | _ => none

def foreignKey? : WrittenClause → Option ForeignKey
  | foreignKey fk => some fk
  | _ => none

def unique? : WrittenClause → Option (List String)
  | unique columns => some columns
  | _ => none

end WrittenClause

/-- What stands before the name of a table or an index that may be there already. -/
def writtenGuard (ifNotExists : Bool) : String := if ifNotExists then "IF NOT EXISTS " else ""

/-- The statement that creates a table. -/
def WrittenTable.sql (t : WrittenTable) : String :=
  "CREATE TABLE " ++ writtenGuard t.ifNotExists ++ t.name ++ " (" ++
    String.intercalate ", " (t.clauses.map WrittenClause.sql) ++ ")"

/-- The statement that creates an index. -/
def WrittenIndex.sql (i : WrittenIndex) : String :=
  "CREATE INDEX " ++ writtenGuard i.ifNotExists ++ i.name ++ " ON " ++ i.table ++ "(" ++ i.column ++ ")"

namespace WrittenTable

variable (t : WrittenTable)

def columns : List WrittenColumn := t.clauses.filterMap WrittenClause.column?

def columnNames : List String := t.columns.map (·.name)

def foreignKeys : List ForeignKey := t.clauses.filterMap WrittenClause.foreignKey?

def uniqueGroups : List (List String) := t.clauses.filterMap WrittenClause.unique?

end WrittenTable

/-! ## What is well written -/

/-- **A literal that is one**: a number is spelled with digits, perhaps behind a
sign. -/
def WrittenDefault.IsSpelled : WrittenDefault → Prop
  | number spelling => ∃ w, Token.IsNumeral w ∧ (spelling.toList = w ∨ spelling.toList = '-' :: w)
  | text _ => True

/-- Whether a literal has a character without a number in it, and so ends the
statement it stands in. -/
def WrittenDefault.endsText : WrittenDefault → Bool
  | number _ => false
  | text content => content.toList.any (·.toNat == 0)

/-- **A column that is one**: its name is an identifier, and its default a literal. -/
structure WrittenColumn.IsSpelled (c : WrittenColumn) : Prop where
  name_isValid : Identifier.isValid c.name = true
  default_isSpelled : ∀ d ∈ c.defaultValue, d.IsSpelled

/-- Whether a column ends the statement it stands in. -/
def WrittenColumn.endsText (c : WrittenColumn) : Bool := c.defaultValue.any WrittenDefault.endsText

/-- **A clause that is one**: its names are identifiers, and its default is a
literal. -/
def WrittenClause.IsSpelled : WrittenClause → Prop
  | column c => c.IsSpelled
  | foreignKey fk => Identifier.isValid fk.localColumn = true ∧ Identifier.isValid fk.targetTable = true ∧
      Identifier.isValid fk.targetColumn = true
  | unique columns => ∀ c ∈ columns, Identifier.isValid c = true

/-- Whether a clause ends the statement it stands in. -/
def WrittenClause.endsText : WrittenClause → Bool
  | column c => c.endsText
  | _ => false

/-- **A table that is one**: there is a column, columns come first, names are
identifiers and defaults literals. -/
structure WrittenTable.IsSpelled (t : WrittenTable) : Prop where
  name_isValid : Identifier.isValid t.name = true
  columns_ne_nil : t.columns ≠ []
  columns_first : t.clauses.Pairwise fun p q => q.column?.isSome = true → p.column?.isSome = true
  clauses_areSpelled : ∀ p ∈ t.clauses, p.IsSpelled

/-- Whether the definition of the table ends where a default does. -/
def WrittenTable.endsText (t : WrittenTable) : Bool := t.clauses.any WrittenClause.endsText

/-- **An index that is one**: its names are identifiers. -/
structure WrittenIndex.IsSpelled (i : WrittenIndex) : Prop where
  name_isValid : Identifier.isValid i.name = true
  table_isValid : Identifier.isValid i.table = true
  column_isValid : Identifier.isValid i.column = true

/-! ## How a text is read -/

namespace WrittenTable

/-- What follows some keywords, where they stand. -/
def afterWords? : List String → List TableLexeme → Option (List TableLexeme)
  | [], ls => some ls
  | w :: ws, .word v :: ls => if Keyword.same v w then afterWords? ws ls else none
  | _ :: _, _ => none

/-- Whether some keywords stand here, and what follows them if they do. -/
def optional (ws : List String) (ls : List TableLexeme) : Bool × List TableLexeme :=
  match afterWords? ws ls with
  | some rest => (true, rest)
  | none => (false, ls)

def name? : List TableLexeme → Option (String × List TableLexeme)
  | .word v :: ls => if Identifier.isValid v then some (v, ls) else none
  | _ => none

/-- A name of the table's own, which no reserved word is. -/
def ownName? (ls : List TableLexeme) : Option (String × List TableLexeme) :=
  (name? ls).filter fun (name, _) => !Keyword.isReserved name

def affinity? : List TableLexeme → Option (Affinity × List TableLexeme)
  | .word v :: ls => ([.integer, .real, .text, .blob].find? (·.sql == v)).map fun a => (a, ls)
  | _ => none

def after? (l : TableLexeme) : List TableLexeme → Option (List TableLexeme)
  | k :: ls => if k = l then some ls else none
  | [] => none

/-- A name in parentheses. -/
def nameInParens? (ls : List TableLexeme) : Option (String × List TableLexeme) := do
  let (name, ls) ← name? (← after? .opens ls)
  return (name, ← after? .closes ls)

/-- Names with commas between them, up to the parenthesis that ends the clause. -/
def names? : List TableLexeme → Option (List String)
  | [.word v, .closes] => if Identifier.isValid v then some [v] else none
  | .word v :: .comma :: ls => if Identifier.isValid v then (names? ls).map (v :: ·) else none
  | _ => none

/-- Whether some characters are a number, perhaps with a sign. -/
def isNumber : List Char → Bool
  | '-' :: w => (Token.readNumber w).any (·.2.isEmpty)
  | w => (Token.readNumber w).any (·.2.isEmpty)

/-- A literal that ends the clause. -/
def literal? : List TableLexeme → Option WrittenDefault
  | [.quoted s] => some (.text s)
  | [.word v] => if isNumber v.toList then some (.number v) else none
  | _ => none

/-- The default that ends the clause, where there is one. -/
def default? (ls : List TableLexeme) : Option (Option WrittenDefault) :=
  match optional ["DEFAULT"] ls with
  | (true, ls) => (literal? ls).map some
  | (false, ls) => if ls.isEmpty then some none else none

/-- What only a key can have after its words. -/
def autoIncrement (isKey : Bool) (ls : List TableLexeme) : Bool × List TableLexeme :=
  if isKey then optional ["AUTOINCREMENT"] ls else (false, ls)

/-- A column: its name, its type, and its constraints in their order. -/
def column? (ls : List TableLexeme) : Option WrittenColumn := do
  let (name, ls) ← ownName? ls
  let (affinity, ls) ← affinity? ls
  let (isPrimaryKey, ls) := optional ["PRIMARY", "KEY"] ls
  let (isAutoIncrement, ls) := autoIncrement isPrimaryKey ls
  let (isNotNull, ls) := optional ["NOT", "NULL"] ls
  let (isUnique, ls) := optional ["UNIQUE"] ls
  let defaultValue ← default? ls
  return { name, affinity, isPrimaryKey, isAutoIncrement, isNotNull, isUnique, defaultValue }

/-- A foreign key, after its first words. -/
def foreignKey? (ls : List TableLexeme) : Option ForeignKey := do
  let (localColumn, ls) ← nameInParens? ls
  let (targetTable, ls) ← name? (← afterWords? ["REFERENCES"] ls)
  let (targetColumn, ls) ← nameInParens? ls
  if ls.isEmpty then some { localColumn, targetTable, targetColumn } else none

/-- A clause. Its first words tell which one it is. -/
def clause? (ls : List TableLexeme) : Option WrittenClause :=
  match afterWords? ["FOREIGN", "KEY"] ls, afterWords? ["UNIQUE"] ls with
  | some rest, _ => (foreignKey? rest).map .foreignKey
  | none, some rest => ((after? .opens rest).bind names?).map .unique
  | none, none => (column? ls).map .column

/-- The lexemes up to the parenthesis that ends the definition, cut at the
commas that stand in no other parentheses. -/
def pieces? (depth : Nat) (taken : List TableLexeme) : List TableLexeme → Option (List (List TableLexeme))
  | [] => none
  | .comma :: ls =>
    if depth = 0 then (pieces? 0 [] ls).map (taken.reverse :: ·) else pieces? depth (.comma :: taken) ls
  | .closes :: ls =>
    if depth = 0 then if ls.isEmpty then some [taken.reverse] else none
    else pieces? (depth - 1) (.closes :: taken) ls
  | .opens :: ls => pieces? (depth + 1) (.opens :: taken) ls
  | l :: ls => pieces? depth (l :: taken) ls

/-- The definition that some lexemes are. -/
def ofLexemes? (ls : List TableLexeme) : Option WrittenTable := do
  let (ifNotExists, ls) := optional ["IF", "NOT", "EXISTS"] (← afterWords? ["CREATE", "TABLE"] ls)
  let (name, ls) ← ownName? ls
  let pieces ← pieces? 0 [] (← after? .opens ls)
  return { ifNotExists, name, clauses := ← pieces.mapM clause? }

/-- **The definition that a text is**, if it is one. -/
def ofText? (text : String) : Option WrittenTable := (TableLexeme.read text.toList).bind ofLexemes?

end WrittenTable

/-! ## Lexemes of what is written -/

namespace TableLexeme

open Token (Breaks doubled)

variable {c : Char} {w b cs : List Char} {ls : List TableLexeme}

@[simp]
theorem read_nil : read [] = some [] := rfl

@[simp]
theorem read_blank : read (' ' :: b) = read b := by
  simp [read, readFrom, step, start, Token.isBlank]

@[simp]
theorem read_opens : read ('(' :: b) = (read b).map (.opens :: ·) := rfl

@[simp]
theorem read_closes : read (')' :: b) = (read b).map (.closes :: ·) := rfl

@[simp]
theorem read_comma : read (',' :: b) = (read b).map (.comma :: ·) := rfl

/-- A character that goes on with a word begins one as well. -/
theorem start_of_not_endsWord (hc : endsWord c = false) : start c = ([], .word [c]) := by
  simp only [endsWord, Bool.or_eq_false_iff, beq_eq_false_iff_ne] at hc
  obtain ⟨⟨⟨⟨hblank, hopens⟩, hcloses⟩, hcomma⟩, hquote⟩ := hc
  simp [start, hblank, hopens, hcloses, hcomma, hquote]

theorem endsWord_of_breaks (h : Breaks (c :: b)) : endsWord c = true := by
  rcases h.head with rfl | rfl | rfl | rfl <;> rfl

/-- A word that is begun goes on to the next break, by induction on what is
left of it. -/
theorem readFrom_word (taken : List Char) (hw : ∀ c ∈ w, endsWord c = false) (hb : Breaks b) :
    readFrom (.word taken) (w ++ b) =
      (read b).map (.word (String.ofList (taken.reverse ++ w)) :: ·) := by
  induction w generalizing taken with
  | nil =>
    rw [List.nil_append, List.append_nil]
    rcases b with _ | ⟨c, b⟩
    · rfl
    · simp [read, readFrom, step, endsWord_of_breaks hb, Function.comp_def]
  | cons c w ih =>
    have hc := hw c List.mem_cons_self
    rw [List.cons_append, readFrom, step, if_neg (by simp [hc])]
    simp only [List.nil_append, Option.map_id']
    rw [ih (c :: taken) fun d hd => hw d (List.mem_cons_of_mem c hd)]
    simp

/-- **A word is a lexeme** before every break. -/
theorem read_word (hne : w ≠ []) (hw : ∀ c ∈ w, endsWord c = false) (hb : Breaks b) :
    read (w ++ b) = (read b).map (.word (String.ofList w) :: ·) := by
  obtain ⟨c, w, rfl⟩ := List.exists_cons_of_ne_nil hne
  have hc := hw c List.mem_cons_self
  have hrest := readFrom_word [c] (fun d hd => hw d (List.mem_cons_of_mem c hd)) hb
  rw [List.cons_append, read, readFrom, step, start_of_not_endsWord hc]
  simpa using hrest

/-- A text that is begun goes on to the quote that closes it, by induction on
what is left of it. -/
theorem readFrom_doubled (taken : List Char) (hb : ∀ d ∈ b.head?, d ≠ '\x27') :
    readFrom (.text taken) (doubled cs ++ '\x27' :: b) =
      (read b).map (.quoted (String.ofList (taken.reverse ++ cs)) :: ·) := by
  induction cs generalizing taken with
  | nil =>
    -- the quote closes the text unless one more follows it
    have hclosed : readFrom (.quote taken) b =
        (read b).map (.quoted (String.ofList taken.reverse) :: ·) := by
      rcases b with _ | ⟨d, b⟩
      · rfl
      · have hd : d ≠ '\x27' := hb d rfl
        simp [read, readFrom, step, hd, Function.comp_def]
    rw [List.append_nil, ← hclosed]
    simp [doubled, readFrom, step]
  | cons c cs ih =>
    by_cases hc : c = '\x27'
    · -- a quote that is doubled is one character of the text
      subst hc
      rw [Token.doubled_quote]
      simp only [List.cons_append, readFrom, step, if_true, List.nil_append, Option.map_id']
      rw [ih]
      simp
    · rw [Token.doubled_cons hc]
      simp only [List.cons_append, readFrom, step, if_neg hc, List.nil_append, Option.map_id']
      rw [ih]
      simp

/-- **A text in quotes is one lexeme**, whatever stands in it, unless one more
quote comes after it. -/
theorem read_quoted (cs : List Char) (hb : ∀ d ∈ b.head?, d ≠ '\x27') :
    read ('\x27' :: (doubled cs ++ '\x27' :: b)) = (read b).map (.quoted (String.ofList cs) :: ·) := by
  have htext : readFrom (.text []) (doubled cs ++ '\x27' :: b) = _ := readFrom_doubled [] hb
  rw [read, readFrom]
  simpa [step, start, Token.isBlank] using htext

theorem breaks_ne_quote (hb : Breaks b) : ∀ d ∈ b.head?, d ≠ '\x27' := hb.head_ne (.inr rfl)

end TableLexeme

end TypedTables

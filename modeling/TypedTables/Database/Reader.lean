import TypedTables.Database.Instruction
import TypedTables.Database.Token
/-!
# TypedTables — reading SQL

How the tokens of a text are read as an instruction. Among conditions, `OR`
binds weakest, then `AND`, then `NOT`, then equality and its kin, then the
comparisons by size; a `BETWEEN` takes the first `AND` after it for itself.
A bare placeholder has the number after the highest one so far.
-/

namespace TypedTables

/-- What is left to read, and the highest number of a placeholder so far. -/
structure ReaderState where
  tokens : List Token
  placeholders : Nat := 0

abbrev SqlReader := StateT ReaderState Option

namespace SqlReader

variable {α : Type}

def next : SqlReader Token := do
  match (← get).tokens with
  | [] => failure
  | t :: rest =>
    modify fun s => { s with tokens := rest }
    return t

/-- Takes the next token if it passes a test. -/
def takeIf (test : Token → Bool) : SqlReader Bool := do
  match (← get).tokens with
  | [] => return false
  | t :: rest =>
    if test t then modify fun s => { s with tokens := rest }
    return test t

def isKeyword (word : String) (t : Token) : Bool :=
  match t.kind with
  | .word text => Keyword.same text word
  | _ => false

/-- Takes a keyword if it comes next. -/
def keyword? (word : String) : SqlReader Bool := takeIf (isKeyword word)

/-- Takes several keywords if they come next. -/
def keywords? (words : List String) : SqlReader Bool := do
  let tokens := (← get).tokens
  let found := words.length ≤ tokens.length && (words.zip tokens).all fun (w, t) => isKeyword w t
  if found then modify fun s => { s with tokens := tokens.drop words.length }
  return found

def keyword (word : String) : SqlReader Unit := do if ← keyword? word then return () else failure

def symbol? (text : String) : SqlReader Bool := takeIf fun t => t.kind == .symbol text

def symbol (text : String) : SqlReader Unit := do if ← symbol? text then return () else failure

/-- A name: a word that is not reserved, or anything in quotes. -/
def nameOf? (t : Token) : Option String :=
  match t.kind with
  | .word text => if Keyword.isReserved text then none else some text
  | .name text => some text
  | _ => none

def name : SqlReader String := do
  match nameOf? (← next) with
  | some text => return text
  | none => failure

/-- The name of a new table or index. The start of a guard is none. -/
def newName : SqlReader String := do if ← keyword? "if" then failure else name

/-- Whether a token starts a term where a name could stand. -/
def startsTerm (t : Token) : Bool :=
  match t.kind with
  | .word text => Keyword.startsTerm text
  | _ => false

/-- The name of a column where a term can stand as well. Terms of other kinds
are not read there. -/
def termName : SqlReader String := do
  if (← get).tokens.head?.any startsTerm then failure else name

/-- The items that follow an item, each after a comma. -/
def afterComma (item : SqlReader α) : (fuel : Nat) → SqlReader (List α)
  | 0 => failure
  | fuel + 1 => do
    if ← symbol? "," then return (← item) :: (← afterComma item fuel) else return []

/-- One or more items with commas between them. An item takes at least one
token, so their number bounds the steps. -/
def commaList (item : SqlReader α) : SqlReader (List α) := do
  let fuel := (← get).tokens.length + 1
  return (← item) :: (← afterComma item fuel)

def parens (item : SqlReader α) : SqlReader α := do
  symbol "("
  let a ← item
  symbol ")"
  return a

/-- Goes on with what follows as long as there is more of it. -/
def extend (more : α → SqlReader (Option α)) : (fuel : Nat) → α → SqlReader α
  | 0, _ => failure
  | fuel + 1, a => do
    match ← more a with
    | some b => extend more fuel b
    | none => return a

/-! ## Terms -/

/-- The position of a placeholder among the arguments. -/
def placeholder (number : Option Nat) : SqlReader NamedTerm := do
  let s ← get
  let n := number.getD (s.placeholders + 1)
  if n = 0 || 32766 < n then failure
  set { s with placeholders := max s.placeholders n }
  return .argument (n - 1)

/-- A column by its name. -/
def columnAfter (first : String) : SqlReader NamedTerm := do
  if ← symbol? "." then return .column ⟨some first, ← name⟩
  else return .column ⟨none, first⟩

/-- A call of one of the functions that are known. -/
def call (inner : SqlReader NamedTerm) (function : String) : SqlReader NamedTerm := do
  match Keyword.fold function with
  | "count" =>
    symbol "*"
    symbol ")"
    return .rowCount
  | "cast" => do
    let a ← inner
    keyword "as"
    keyword "text"
    symbol ")"
    return .asText a
  | "random" =>
    symbol ")"
    return .literal (.integer 0)
  | _ => failure

/-- A number, for the sign before it. -/
def number : SqlReader Value := do
  match (← next).kind with
  | .literal (.integer n) => return .integer n
  | .literal (.real x) => return .real x
  | _ => failure

/-- A number behind a minus sign. The least integer has no positive one. -/
def negative : SqlReader Value := do
  let spelling := ((← get).tokens.head?.map (·.spelling)).getD ""
  let v ← number
  return if spelling.toNat? = some Int64.minValue.toInt.natAbs then .integer Int64.minValue else Cell.negate v

def operand (inner : SqlReader NamedTerm) : SqlReader NamedTerm := do
  let t ← next
  match t.kind with
  | .literal v => return .literal v
  | .placeholder n => placeholder n
  | .symbol "(" =>
    let a ← inner
    symbol ")"
    return a
  | .symbol "-" => return .literal (← negative)
  | .symbol "+" => return .literal (← number)
  | .name text => columnAfter text
  | .word text =>
    if Keyword.same text "null" then return .literal .null
    else if Keyword.same text "true" then return .literal (.ofBool true)
    else if Keyword.same text "false" then return .literal (.ofBool false)
    else if Keyword.isReserved text then failure
    else if ← symbol? "(" then call inner text
    else if Keyword.startsTerm text then failure
    else columnAfter text
  | .symbol _ => failure

/-- The comparisons by size that follow an operand. -/
def moreRelation (operand : SqlReader NamedTerm) (a : NamedTerm) : SqlReader (Option NamedTerm) := do
  if ← symbol? "<" then return some (.compare .less a (← operand))
  else if ← symbol? "<=" then return some (.compare .lessOrEqual a (← operand))
  else if ← symbol? ">" then return some (.compare .greater a (← operand))
  else if ← symbol? ">=" then return some (.compare .greaterOrEqual a (← operand))
  else return none

/-- Whether a value is one of some others. -/
def alternatives (a : NamedTerm) : List NamedTerm → NamedTerm
  | [] => .literal (.ofBool false)
  | [b] => .compare .equal a b
  | b :: rest => .or (.compare .equal a b) (alternatives a rest)

/-- Whether a value is in a list. A list of one is a plain comparison. -/
def oneOf (a : NamedTerm) (items : List NamedTerm) : NamedTerm :=
  if items.length < 2 then alternatives a items else .short (alternatives a items)

def between (a low high : NamedTerm) : NamedTerm :=
  .short (.and (.compare .greaterOrEqual a low) (.compare .lessOrEqual a high))

/-- Whether two values are not the same. That a value is not empty is a
condition of its own. -/
def different (a b : NamedTerm) : NamedTerm :=
  if b = .literal .null then .short (.not (.same a b)) else .not (.same a b)

/-- A test that can stand after `NOT` as well. -/
def test? (inner side : SqlReader NamedTerm) (a : NamedTerm) : SqlReader (Option NamedTerm) := do
  if ← keyword? "in" then
    symbol "("
    if ← symbol? ")" then return some (oneOf a [])
    else
      let items ← commaList inner
      symbol ")"
      return some (oneOf a items)
  else if ← keyword? "like" then return some (.like a (← side))
  else if ← keyword? "between" then
    let low ← side
    keyword "and"
    return some (between a low (← side))
  else return none

/-- The tests for equality and their kin that follow a side. -/
def moreEquality (inner side : SqlReader NamedTerm) (a : NamedTerm) : SqlReader (Option NamedTerm) := do
  if ← symbol? "=" then return some (.compare .equal a (← side))
  else if ← symbol? "<>" then return some (.compare .notEqual a (← side))
  else if ← keywords? ["is", "not"] then return some (different a (← side))
  else if ← keyword? "is" then return some (.same a (← side))
  else if ← keyword? "isnull" then return some (.same a (.literal .null))
  else if ← keyword? "notnull" then return some (different a (.literal .null))
  else if ← keywords? ["not", "null"] then return some (different a (.literal .null))
  else if ← keyword? "not" then
    match ← test? inner side a with
    | some b => return some (.not b)
    | none => failure
  else test? inner side a

def moreConjunction (side : SqlReader NamedTerm) (a : NamedTerm) : SqlReader (Option NamedTerm) := do
  if ← keyword? "and" then return some (.and a (← side)) else return none

def moreDisjunction (side : SqlReader NamedTerm) (a : NamedTerm) : SqlReader (Option NamedTerm) := do
  if ← keyword? "or" then return some (.or a (← side)) else return none

def negation (side : SqlReader NamedTerm) : (fuel : Nat) → SqlReader NamedTerm
  | 0 => failure
  | fuel + 1 => do if ← keyword? "not" then return .not (← negation side fuel) else side

/-- A term. Every level of parentheses takes tokens, so their number bounds
the depth, and it bounds the chains of every level as well. -/
def termOf : (fuel : Nat) → SqlReader NamedTerm
  | 0 => failure
  | fuel + 1 => do
    let chain (more : NamedTerm → SqlReader (Option NamedTerm)) (side : SqlReader NamedTerm) := do
      extend more (fuel + 1) (← side)
    let inner := termOf fuel
    let sizes := chain (moreRelation (operand inner)) (operand inner)
    let equalities := chain (moreEquality inner sizes) sizes
    let negations := negation equalities (fuel + 1)
    let conjunctions := chain (moreConjunction negations) negations
    chain (moreDisjunction conjunctions) conjunctions

def term : SqlReader NamedTerm := do termOf ((← get).tokens.length + 1)

/-- What follows a keyword, if the keyword comes next. -/
def after? (words : List String) (item : SqlReader α) : SqlReader (Option α) := do
  if ← keywords? words then return some (← item) else return none

/-! ## Queries -/

/-- The text of tokens. -/
def spellingOf : List Token → String
  | [] => ""
  | t :: rest => t.spelling ++ String.join (rest.map fun t => t.gap ++ t.spelling)

/-- The text that was read since some tokens were left. -/
def textSince (start : List Token) : SqlReader String := do
  return spellingOf (start.take (start.length - (← get).tokens.length))

/-- Whether a name, a point and a star come next. -/
def startsWithAllOf (tokens : List Token) : Option String :=
  match tokens with
  | t :: point :: star :: _ =>
    if point.kind == .symbol "." && star.kind == .symbol "*" then nameOf? t else none
  | _ => none

def resultColumn : SqlReader ResultColumn := do
  if ← symbol? "*" then return .all none
  else
    let start := (← get).tokens
    match startsWithAllOf start with
    | some table =>
      modify fun s => { s with tokens := start.drop 3 }
      return .all (some table)
    | none =>
      let a ← term
      let spelling ← textSince start
      return .term a (← after? ["as"] name) spelling

/-- The kind of a join, up to its keyword `JOIN`. -/
def joinKind? : SqlReader (Option JoinKind) := do
  if ← keywords? ["natural", "join"] then return some .natural
  else if ← keywords? ["inner", "join"] then return some .inner
  else if ← keywords? ["left", "outer", "join"] then return some .leftOuter
  else if ← keywords? ["left", "join"] then return some .leftOuter
  else if ← keywords? ["cross", "join"] then return some .cross
  else if ← keyword? "join" then return some .inner
  else return none

def joins : (fuel : Nat) → SqlReader (List JoinedTable)
  | 0 => failure
  | fuel + 1 => do
    match ← joinKind? with
    | none => return []
    | some kind =>
      let table ← name
      let on ← after? ["on"] term
      return ⟨kind, table, on⟩ :: (← joins fuel)

def orderKey : SqlReader OrderKey := do
  let a ← term
  let collation ← after? ["collate"] name
  let collation ←
    match collation.map Keyword.fold with
    | none => pure Collation.none
    | some "binary" => pure Collation.binary
    | some "nocase" => pure Collation.noCase
    | some "rtrim" => pure Collation.rTrim
    | some _ => failure
  let descending ← keyword? "desc"
  if !descending then discard (keyword? "asc")
  return ⟨a, collation, descending⟩

/-- A number of rows. -/
def rowLimit : SqlReader Nat := do
  match (← next).kind with
  | .literal (.integer n) => return n.toInt.toNat
  | _ => failure

def limit : SqlReader Limit := do
  let count ← rowLimit
  return ⟨count, (← after? ["offset"] rowLimit).getD 0⟩

/-- A query after the keyword `SELECT`. -/
def select : SqlReader SelectQuery := do
  let columns ← commaList resultColumn
  let source ← after? ["from"] name
  let joined ← if source.isSome then joins ((← get).tokens.length + 1) else pure []
  let condition ← after? ["where"] term
  let groupBy ← after? ["group", "by"] (commaList term)
  let having ← after? ["having"] term
  let orderBy ← after? ["order", "by"] (commaList orderKey)
  let limit ← after? ["limit"] limit
  return { columns, source, joins := joined, condition, groupBy := groupBy.getD [], having
           orderBy := orderBy.getD [], limit }

/-! ## Changes of rows -/

def policy : SqlReader ConflictPolicy := do
  if ← keyword? "or" then
    match (← next).kind with
    | .word text =>
      match ConflictPolicy.all.find? fun p => Keyword.same p.sql text with
      | some p => return p
      | none => failure
    | _ => failure
  else return .abort

/-- An insertion after the keyword `INSERT`. -/
def insert : SqlReader Instruction := do
  let policy ← policy
  keyword "into"
  let table ← name
  if ← keywords? ["default", "values"] then return .insert table policy []
  else
    let columns ← parens (commaList name)
    keyword "values"
    let values ← parens (commaList term)
    if columns.length = values.length then return .insert table policy (columns.zip values)
    else failure

def assignment : SqlReader (String × NamedTerm) := do
  let column ← name
  symbol "="
  return (column, ← term)

/-- An update after the keyword `UPDATE`. -/
def update : SqlReader Instruction := do
  let table ← name
  keyword "set"
  let assignments ← commaList assignment
  return .update table assignments (← after? ["where"] term)

/-- A deletion after the keyword `DELETE`. -/
def delete : SqlReader Instruction := do
  keyword "from"
  let table ← name
  return .delete table (← after? ["where"] term)

/-! ## Definitions -/

/-- The words of a declared type. -/
def typeWords : (fuel : Nat) → SqlReader (List String)
  | 0 => failure
  | fuel + 1 => do
    match (← get).tokens with
    | [] => return []
    | t :: rest =>
      match nameOf? t with
      | none => return []
      | some word =>
        modify fun s => { s with tokens := rest }
        return word :: (← typeWords fuel)

/-- The declared type of a column. Its size, in parentheses, does not
matter. -/
def typeName : SqlReader String := do
  let words ← typeWords ((← get).tokens.length + 1)
  if !words.isEmpty then
    if ← symbol? "(" then
      discard (commaList number)
      symbol ")"
  return String.intercalate " " words

/-- A default value. A bare name stands for itself as a text. -/
def defaultValue : SqlReader Value := do
  if ← symbol? "-" then negative
  else if ← symbol? "+" then number
  else
    let t ← next
    match t.kind, nameOf? t with
    | .literal v, _ => return v
    | .word text, some _ =>
      if Keyword.same text "true" then return .ofBool true
      else if Keyword.same text "false" then return .ofBool false
      else return .text text
    | .word text, none => if Keyword.same text "null" then return .null else failure
    | .name text, _ => return .text text
    | _, _ => failure

/-- The next constraint of a column, if there is one, or the name of one. -/
def moreConstraint (c : ColumnDefinition) : SqlReader (Option ColumnDefinition) := do
  if ← keywords? ["primary", "key"] then
    discard (keyword? "asc")
    let isAutoIncrement ← keyword? "autoincrement"
    return some { c with isKey := true, isAutoIncrement }
  else if ← keywords? ["not", "null"] then return some { c with isRequired := true }
  else if ← keyword? "null" then return some c
  else if ← keyword? "unique" then return some { c with isUnique := true }
  else if ← keyword? "default" then
    let v ← defaultValue
    return some { c with defaultValue := some v }
  else if ← keyword? "constraint" then
    discard name
    return some c
  else return none

def columnDefinition : SqlReader ColumnDefinition := do
  let name ← name
  let typeName ← typeName
  extend moreConstraint ((← get).tokens.length + 1) { name, typeName }

/-- A constraint of a table without its name, if one comes next. -/
def tableConstraint? (d : TableDefinition) : SqlReader (Option TableDefinition) := do
  if ← keywords? ["foreign", "key"] then
    let localColumn ← parens name
    keyword "references"
    let targetTable ← name
    let targetColumn ← parens name
    return some { d with foreignKeys := d.foreignKeys ++ [⟨localColumn, targetTable, targetColumn⟩] }
  else if ← keyword? "unique" then
    let columns ← parens (commaList termName)
    return some { d with uniqueGroups := d.uniqueGroups ++ [columns] }
  else if ← keywords? ["primary", "key"] then
    let columns ← parens (commaList termName)
    return some { d with keys := d.keys ++ [columns] }
  else return none

/-- The next part of a table definition. Columns come before everything else,
the mere name of a constraint included. -/
def moreDefinition (d : TableDefinition) : SqlReader TableDefinition := do
  if ← keyword? "constraint" then
    let d := { d with constraintNames := d.constraintNames ++ [← name] }
    return (← tableConstraint? d).getD d
  else
    match ← tableConstraint? d with
    | some d => return d
    | none =>
      if d.isLate then failure
      else
        let column ← columnDefinition
        return { d with columns := d.columns ++ [column] }

/-- The parts of a table definition, up to the closing parenthesis. -/
def definitionFrom : (fuel : Nat) → TableDefinition → SqlReader TableDefinition
  | 0, _ => failure
  | fuel + 1, d => do
    let d ← moreDefinition d
    if ← symbol? "," then definitionFrom fuel d
    else
      symbol ")"
      return d

def tableDefinition : SqlReader TableDefinition := do
  symbol "("
  let column ← columnDefinition
  let start : TableDefinition := { columns := [column] }
  if ← symbol? "," then definitionFrom ((← get).tokens.length + 1) start
  else
    symbol ")"
    return start

/-- A definition after the keyword `CREATE`. -/
def create : SqlReader Instruction := do
  if ← keyword? "table" then
    let ifNotExists ← keywords? ["if", "not", "exists"]
    let start := (← get).tokens
    let table ← newName
    let definition ← tableDefinition
    return .createTable table ifNotExists definition (← textSince start)
  else
    keyword "index"
    let ifNotExists ← keywords? ["if", "not", "exists"]
    let start := (← get).tokens
    let index ← newName
    keyword "on"
    let table ← name
    let columns ← parens (commaList termName)
    return .createIndex index ifNotExists table columns (← textSince start)

/-- A removal after the keyword `DROP`. -/
def drop : SqlReader Instruction := do
  keyword "table"
  let ifExists ← keywords? ["if", "exists"]
  return .dropTable (← name) ifExists

def instruction : SqlReader Instruction := do
  if ← keyword? "select" then return .select (← select)
  else if ← keyword? "insert" then insert
  else if ← keyword? "update" then update
  else if ← keyword? "delete" then delete
  else if ← keyword? "create" then create
  else if ← keyword? "drop" then drop
  else failure

end SqlReader

namespace Instruction

/-- Whether a token ends a statement. -/
def isEnd (t : Token) : Bool := t.kind == .symbol ";"

/-- The instruction of a text, and the number of its arguments. There is
only one, whatever semicolons follow it. -/
def ofTokens? (tokens : List Token) : Option (Instruction × Nat) := do
  let (i, s) ← SqlReader.instruction.run { tokens }
  if s.tokens.all isEnd then return (i, s.placeholders) else none

def ofText? (sql : String) : Option (Instruction × Nat) := (Token.ofText? sql).bind ofTokens?

/-- Tokens between semicolons. -/
def split : List Token → List (List Token)
  | [] => [[]]
  | t :: rest =>
    if isEnd t then [] :: split rest
    else
      match split rest with
      | first :: others => (t :: first) :: others
      | [] => [[t]]

/-- The instructions of a text, any number of them. -/
def listOfText? (sql : String) : Option (List Instruction) := do
  ((split (← Token.ofText? sql)).filter (!·.isEmpty)).mapM fun tokens => do
    return (← ofTokens? tokens).1

end Instruction

end TypedTables

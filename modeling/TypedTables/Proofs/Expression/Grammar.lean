import TypedTables.Clause
import TypedTables.Database.Keyword
import TypedTables.Proofs.Database.Token
/-!
# TypedTables — the grammar of conditions

What a text has to look like to be one condition of SQL. A text is first
split into lexemes (`Lexed`), and these derive an expression at one of seven
levels (`Derives`): `OR` binds weakest, then `AND`, then `NOT`, then
comparisons, `IS NULL`, `IN`, `BETWEEN` and `LIKE`, then sums and products.
A range takes the `AND` between its bounds for itself. `Parses` puts the two
together.
-/

namespace TypedTables

/-- The words that the grammar keeps for itself. -/
inductive Word
  | or
  | and
  | not
  | is
  | null
  | isIn
  | between
  | true
  | false
deriving Repr, DecidableEq

/-- The smallest parts of a condition. -/
inductive Lexeme
  | word (w : Word)
  /-- A name: bare and not reserved, or in quotes. -/
  | name (text : String)
  | literal (value : Value)
  /-- A placeholder without a number. -/
  | hole
  /-- A comparison, `LIKE` included. -/
  | relation (op : Operator)
  | plus
  | minus
  | star
  | dot
  | comma
  | opens
  | closes
deriving Repr, DecidableEq

namespace Lexeme

/-- What the bare words of the grammar stand for. -/
def ofKeyword? (folded : String) : Option Lexeme :=
  match folded with
  | "or" => some (.word .or)
  | "and" => some (.word .and)
  | "not" => some (.word .not)
  | "is" => some (.word .is)
  | "null" => some (.word .null)
  | "in" => some (.word .isIn)
  | "between" => some (.word .between)
  | "true" => some (.word .true)
  | "false" => some (.word .false)
  | "like" => some (.relation .like)
  | _ => none

/-- What the symbols of the grammar stand for. -/
def ofSymbol? (symbol : String) : Option Lexeme :=
  match symbol with
  | "=" => some (.relation .equal)
  | "<>" => some (.relation .notEqual)
  | "<" => some (.relation .less)
  | "<=" => some (.relation .lessOrEqual)
  | ">" => some (.relation .greater)
  | ">=" => some (.relation .greaterOrEqual)
  | "+" => some .plus
  | "-" => some .minus
  | "*" => some .star
  | "." => some .dot
  | "," => some .comma
  | "(" => some .opens
  | ")" => some .closes
  | _ => none

/-- The lexeme of a bare word: a word of the grammar, or a name unless SQL
keeps the word for itself. -/
def ofWord? (text : String) : Option Lexeme :=
  match ofKeyword? (Keyword.fold text) with
  | some t => some t
  | none => if Keyword.isReserved text then none else some (.name text)

/-- The lexeme of a token. -/
def ofToken? : TokenKind → Option Lexeme
  | .word text => ofWord? text
  | .name text => some (.name text)
  | .literal v => some (.literal v)
  | .placeholder none => some .hole
  | .placeholder (some _) => none
  | .symbol s => ofSymbol? s

end Lexeme

/-- Whether a text starts with a comment. -/
def startsComment (cs : List Char) : Bool :=
  ['-', '-'].isPrefixOf cs || ['/', '*'].isPrefixOf cs

/-- **A text splits into lexemes**: the engine's tokens, with nothing but
blanks between them. A comment is no part of a condition. -/
inductive Lexed : List Char → List Lexeme → Prop
  | nil : Lexed [] []
  | blank {c : Char} {cs : List Char} {ts : List Lexeme} :
      Token.isBlank c = true → Lexed cs ts → Lexed (c :: cs) ts
  | lexeme {spelling rest : List Char} {k : TokenKind} {t : Lexeme} {ts : List Lexeme} :
      spelling ≠ [] → startsComment (spelling ++ rest) = false →
      Token.readKind (spelling ++ rest) = some (k, rest) → Lexeme.ofToken? k = some t →
      Lexed rest ts → Lexed (spelling ++ rest) (t :: ts)

namespace Lexed

variable {cs ds b : List Char} {ts us : List Lexeme}

theorem startsComment_append (h : Token.Breaks b) (hne : cs ≠ []) :
    startsComment (cs ++ b) = startsComment cs := by
  rcases cs with _ | ⟨c, _ | ⟨d, cs⟩⟩
  · exact absurd rfl hne
  · rcases b with _ | ⟨d, b⟩
    · rfl
    · have hd : d ≠ '-' ∧ d ≠ '*' := by rcases h.head with rfl | rfl | rfl | rfl <;> decide
      simp [startsComment, List.isPrefixOf, hd.1.symm, hd.2.symm]
  · simp [startsComment, List.isPrefixOf]

/-- **Texts are split one after the other**, where the second one starts with
what no token goes on with. -/
theorem append (h : Lexed cs ts) (hd : Lexed ds us) (hb : Token.Breaks ds) :
    Lexed (cs ++ ds) (ts ++ us) := by
  induction h with
  | nil => exact hd
  | blank hc _ ih => exact .blank hc ih
  | @lexeme spelling rest k t ts hne hcom hk ht _ ih =>
    rw [List.append_assoc, List.cons_append]
    refine .lexeme hne ?_ ?_ ht ih
    · rw [← List.append_assoc, startsComment_append hb (by simp [hne]), hcom]
    · rw [← List.append_assoc, Token.readKind_append hb hk]

theorem opens (h : Lexed cs ts) : Lexed ('(' :: cs) (.opens :: ts) :=
  show Lexed (['('] ++ cs) _ from .lexeme (by simp) rfl rfl rfl h

theorem closes (h : Lexed cs ts) : Lexed (')' :: cs) (.closes :: ts) :=
  show Lexed ([')'] ++ cs) _ from .lexeme (by simp) rfl rfl rfl h

theorem comma (h : Lexed cs ts) : Lexed (',' :: cs) (.comma :: ts) :=
  show Lexed ([','] ++ cs) _ from .lexeme (by simp) rfl rfl rfl h

/-- A blank text before a text changes nothing. -/
theorem space (h : Lexed cs ts) : Lexed (' ' :: cs) ts := .blank rfl h

/-- A bare word, up to what is no part of one. -/
theorem word {c : Char} {w : List Char} {t : Lexeme} (h : Lexed cs ts)
    (hc : Token.isWordStart c = true) (hw : ∀ d ∈ w, Token.isWordPart d = true)
    (ht : Lexeme.ofWord? (String.ofList (c :: w)) = some t)
    (hb : ∀ d ∈ cs.head?, Token.isWordPart d = false) (hq : cs.head? ≠ some '\x27') :
    Lexed (c :: w ++ cs) (t :: ts) := by
  refine .lexeme (by simp) ?_ (Token.readKind_word hc hw hb hq) ht h
  have hm : c ≠ '-' ∧ c ≠ '/' := by
    constructor <;> rintro rfl <;> exact absurd hc (by decide)
  simp [startsComment, List.isPrefixOf, hm.1.symm, hm.2.symm]

end Lexed

/-- Operators between two operands of the same level. -/
inductive BinaryOp
  | or
  | and
  | plus
  | minus
  | times
deriving Repr, DecidableEq

/-- A condition, or a value in one. -/
inductive Expression
  | literal (value : Value)
  | hole
  /-- A column, by its name and those of what it belongs to. -/
  | column (path : List String)
  | call (function : String) (arguments : List Expression)
  /-- A function of all rows. -/
  | callAll (function : String)
  | negative (a : Expression)
  | binary (op : BinaryOp) (a b : Expression)
  | compare (op : Operator) (a b : Expression)
  | isNull (a : Expression)
  | isIn (a : Expression) (items : List Expression)
  | between (a low high : Expression)
  | not (a : Expression)
deriving Repr, Inhabited

/-- The negation of an expression, or the expression. -/
def Expression.notIf (negated : Bool) (e : Expression) : Expression := if negated then .not e else e

/-- How tightly the parts of an expression hold together. -/
inductive Level
  | disjunction
  | conjunction
  | negation
  | test
  | sum
  | product
  | primary
deriving Repr, DecidableEq

namespace Level

/-- The level of the operands of a level. -/
def tighter : Level → Level
  | disjunction => conjunction
  | conjunction => negation
  | negation => test
  | test => sum
  | sum => product
  | product | primary => primary

/-- The number of levels that hold tighter. -/
def rank : Level → Nat
  | disjunction => 6
  | conjunction => 5
  | negation => 4
  | test => 3
  | sum => 2
  | product => 1
  | primary => 0

end Level

/-- The level an operator stands at. -/
def BinaryOp.level : BinaryOp → Level
  | .or => .disjunction
  | .and => .conjunction
  | .plus | .minus => .sum
  | .times => .product

def BinaryOp.lexeme : BinaryOp → Lexeme
  | .or => .word .or
  | .and => .word .and
  | .plus => .plus
  | .minus => .minus
  | .times => .star

/-- The word `NOT`, where a test is negated. -/
def Lexeme.notIf (negated : Bool) : List Lexeme := if negated then [.word .not] else []

/-- Rows of lexemes with a comma between each two. -/
def Lexeme.commas : List (List Lexeme) → List Lexeme
  | [] => []
  | [a] => a
  | a :: b :: rest => a ++ .comma :: commas (b :: rest)

/-- A name with those of what it belongs to, with points between them. -/
def Lexeme.path : List String → List Lexeme
  | [] => []
  | [a] => [.name a]
  | a :: b :: rest => .name a :: .dot :: path (b :: rest)

/-- **The grammar**: which lexemes are an expression of a level. -/
inductive Derives : Level → List Lexeme → Expression → Prop
  /-- Whatever holds tighter may stand for a looser level. -/
  | loosen {level : Level} {ts : List Lexeme} {e : Expression} :
      level ≠ .primary → Derives level.tighter ts e → Derives level ts e
  | binary {op : BinaryOp} {a b : List Lexeme} {x y : Expression} :
      Derives op.level a x → Derives op.level.tighter b y →
      Derives op.level (a ++ op.lexeme :: b) (.binary op x y)
  | not {ts : List Lexeme} {e : Expression} :
      Derives .negation ts e → Derives .negation (.word .not :: ts) (.not e)
  | compare {op : Operator} {a b : List Lexeme} {x y : Expression} :
      Derives .sum a x → Derives .sum b y →
      Derives .test (a ++ .relation op :: b) (.compare op x y)
  | notLike {a b : List Lexeme} {x y : Expression} :
      Derives .sum a x → Derives .sum b y →
      Derives .test (a ++ .word .not :: .relation .like :: b) (.not (.compare .like x y))
  | isNull {negated : Bool} {a : List Lexeme} {x : Expression} :
      Derives .sum a x →
      Derives .test (a ++ .word .is :: (Lexeme.notIf negated ++ [.word .null]))
        (.notIf negated (.isNull x))
  | isIn {negated : Bool} {a : List Lexeme} {x : Expression}
      {items : List (List Lexeme × Expression)} :
      Derives .sum a x → items ≠ [] → (∀ i ∈ items, Derives .disjunction i.1 i.2) →
      Derives .test
        (a ++ (Lexeme.notIf negated ++
          .word .isIn :: .opens :: (Lexeme.commas (items.map Prod.fst) ++ [.closes])))
        (.notIf negated (.isIn x (items.map Prod.snd)))
  /-- The first `AND` after `BETWEEN` belongs to it: the bounds hold tighter. -/
  | between {negated : Bool} {a l h : List Lexeme} {x low high : Expression} :
      Derives .sum a x → Derives .sum l low → Derives .sum h high →
      Derives .test (a ++ (Lexeme.notIf negated ++ .word .between :: (l ++ .word .and :: h)))
        (.notIf negated (.between x low high))
  | literal {v : Value} : Derives .primary [.literal v] (.literal v)
  | null : Derives .primary [.word .null] (.literal .null)
  | true : Derives .primary [.word .true] (.literal (.ofBool Bool.true))
  | false : Derives .primary [.word .false] (.literal (.ofBool Bool.false))
  | hole : Derives .primary [.hole] .hole
  | column {path : List String} : path ≠ [] → Derives .primary (Lexeme.path path) (.column path)
  | call {f : String} {items : List (List Lexeme × Expression)} :
      (∀ i ∈ items, Derives .disjunction i.1 i.2) →
      Derives .primary (.name f :: .opens :: (Lexeme.commas (items.map Prod.fst) ++ [.closes]))
        (.call f (items.map Prod.snd))
  | callAll {f : String} : Derives .primary [.name f, .opens, .star, .closes] (.callAll f)
  | negative {ts : List Lexeme} {e : Expression} :
      Derives .primary ts e → Derives .primary (.minus :: ts) (.negative e)
  | parens {ts : List Lexeme} {e : Expression} :
      Derives .disjunction ts e → Derives .primary (.opens :: (ts ++ [.closes])) e

/-- **A text is a condition of SQL**, and this is the one that it is. -/
def Parses (text : String) (e : Expression) : Prop :=
  ∃ ts, Lexed text.toList ts ∧ Derives .disjunction ts e

namespace Derives

variable {ts : List Lexeme} {e : Expression}

/-- What holds tightly may stand for every looser level. -/
theorem of_le {tight loose : Level} (h : Derives tight ts e) (hr : tight.rank ≤ loose.rank) :
    Derives loose ts e := by
  induction hn : loose.rank - tight.rank generalizing loose with
  | zero =>
    have : tight = loose := by cases tight <;> cases loose <;> first | rfl | (simp [Level.rank] at *)
    exact this ▸ h
  | succ n ih =>
    have hp : loose ≠ .primary := by rintro rfl; simp [Level.rank] at hn
    have ht : loose.tighter.rank = loose.rank - 1 := by cases loose <;> rfl
    exact .loosen hp (ih (by omega) (by omega))

end Derives

end TypedTables

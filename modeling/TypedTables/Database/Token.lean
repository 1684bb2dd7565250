import TypedTables.Decimal.Numeral
import TypedTables.Value.Written
/-!
# TypedTables — tokens of SQL

The words, names, literals, placeholders and symbols of a text. Blanks and
comments stand between tokens and mean nothing. A doubled quote inside
quotes stands for the quote itself.
-/

namespace TypedTables

/-- What a token is. -/
inductive TokenKind
  /-- A keyword or a bare name. -/
  | word (text : String)
  /-- A name in quotes. -/
  | name (text : String)
  | literal (value : Value)
  /-- A placeholder, with its number if it has one. -/
  | placeholder (number : Option Nat)
  | symbol (text : String)
deriving Repr, DecidableEq

/-- A token and the text it was read from. -/
structure Token where
  kind : TokenKind
  spelling : String
  /-- What stands between this token and the one before. -/
  gap : String := ""
deriving Repr, DecidableEq

namespace Token

/-- Characters that a bare word can start with. -/
def isWordStart (c : Char) : Bool := c.isAlpha || c == '_' || 0x80 ≤ c.toNat

def isWordPart (c : Char) : Bool := isWordStart c || c.isDigit || c == '$'

def isBlank (c : Char) : Bool := c == ' ' || c == '\t' || c == '\n' || c == '\x0c' || c == '\r'

/-- The rest of a text after a comment that ends with a star and a slash, or
with the text. -/
def afterComment : List Char → List Char
  | [] => []
  | '*' :: '/' :: rest => rest
  | _ :: rest => afterComment rest

/-- A text without the blanks and comments at its start. A comment takes at
least one character, so the length of the text bounds the steps. -/
def skip : (fuel : Nat) → List Char → List Char
  | 0, cs => cs
  | fuel + 1, '-' :: '-' :: rest => skip fuel (rest.dropWhile (· != '\n'))
  | fuel + 1, '/' :: '*' :: rest => skip fuel (afterComment rest)
  | fuel + 1, c :: rest => if isBlank c then skip fuel rest else c :: rest
  | _ + 1, [] => []

/-- The characters up to the closing quote, and the rest after it. -/
def readQuoted (quote : Char) (taken : List Char) : List Char → Option (String × List Char)
  | [] => none
  | [c] => if c = quote then some (String.ofList taken.reverse, []) else none
  | c :: d :: rest =>
    if c = quote then
      if d = quote then readQuoted quote (quote :: taken) rest
      else some (String.ofList taken.reverse, d :: rest)
    else readQuoted quote (c :: taken) (d :: rest)

/-- The exponent at the start of a text, if there is one. -/
def readExponent (cs : List Char) : Option (Int × List Char) :=
  match cs with
  | [] => none
  | e :: rest =>
    if e == 'e' || e == 'E' then
      let (negative, rest) := match rest with
        | '+' :: rest => (false, rest)
        | '-' :: rest => (true, rest)
        | rest => (false, rest)
      match Numeral.takeDigits rest with
      | ([], _) => none
      | (digits, rest) =>
        let n : Int := Numeral.ofDigits digits
        some (if negative then -n else n, rest)
    else none

/-- The digits of a fraction at the start of a text, if a point is there. -/
def readFraction : List Char → Option (List Nat × List Char)
  | '.' :: rest => some (Numeral.takeDigits rest)
  | _ => none

/-- The value of a number: an integer if it has neither point nor exponent
and fits 64 bits, and a real otherwise. -/
def readNumber (cs : List Char) : Option (Value × List Char) :=
  let (whole, rest) := Numeral.takeDigits cs
  let fraction := readFraction rest
  let (digits, rest) := fraction.getD ([], rest)
  let exponent := readExponent rest
  let (power, rest) := exponent.getD (0, rest)
  if whole.isEmpty && digits.isEmpty then none
  else if rest.head?.any isWordPart then none
  else
    let n := if fraction.isNone && exponent.isNone then int64? (Numeral.ofDigits whole) else none
    some ((n.map Value.integer).getD (.real (Numeral.toDouble ⟨false, whole, digits, power⟩)), rest)

/-- The symbol at the start of a text, the longest one that is there. -/
def readSymbol : List Char → Option (String × List Char)
  | '=' :: '=' :: rest => some ("=", rest)
  | '<' :: '>' :: rest => some ("<>", rest)
  | '!' :: '=' :: rest => some ("<>", rest)
  | '<' :: '=' :: rest => some ("<=", rest)
  | '>' :: '=' :: rest => some (">=", rest)
  | c :: rest => if "=<>(),;.*-+".toList.contains c then some (c.toString, rest) else none
  | [] => none

/-- The token at the start of a text that does not start with a blank. -/
def readKind : List Char → Option (TokenKind × List Char)
  | [] => none
  | '\x27' :: rest => (readQuoted '\x27' [] rest).map fun (s, rest) => (.literal (.text s), rest)
  | '"' :: rest => (readQuoted '"' [] rest).map fun (s, rest) => (.name s, rest)
  | '?' :: rest =>
    match Numeral.takeDigits rest with
    | ([], rest) => some (.placeholder none, rest)
    | (digits, rest) => some (.placeholder (some (Numeral.ofDigits digits)), rest)
  | c :: rest =>
    if c.isDigit || (c == '.' && rest.head?.any Char.isDigit) then
      (readNumber (c :: rest)).map fun (v, rest) => (.literal v, rest)
    else if (c == 'x' || c == 'X') && rest.head? == some '\x27' then do
      let (hex, rest) ← readQuoted '\x27' [] rest.tail
      return (.literal (.blob (← Text.bytesOfHex? hex.toList)), rest)
    else if isWordStart c then
      let (word, rest) := (c :: rest).span isWordPart
      some (.word (String.ofList word), rest)
    else (readSymbol (c :: rest)).map fun (s, rest) => (.symbol s, rest)

/-- The tokens of a text. Every token takes at least one character, so the
length of the text bounds the steps. -/
def readAll : (fuel : Nat) → (gap : String) → List Char → Option (List Token)
  | _, _, [] => some []
  | 0, _, _ => none
  | fuel + 1, gap, c :: cs =>
    let start := skip (cs.length + 1) (c :: cs)
    let passed := String.ofList ((c :: cs).take ((c :: cs).length - start.length))
    if start.length < (c :: cs).length then readAll fuel (gap ++ passed) start
    else do
      let (kind, rest) ← readKind (c :: cs)
      let spelling := String.ofList ((c :: cs).take ((c :: cs).length - rest.length))
      return ⟨kind, spelling, gap⟩ :: (← readAll fuel "" rest)

/-- The tokens of a text, if all of it can be read. A character without a
number ends the text. -/
def ofText? (s : String) : Option (List Token) :=
  readAll (2 * s.length + 1) "" (s.toList.takeWhile (·.toNat != 0))

end Token

end TypedTables

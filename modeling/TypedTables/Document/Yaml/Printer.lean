import TypedTables.Decimal.Layout
import TypedTables.Document.Yaml.Character
import TypedTables.Document.Yaml.Scalar
/-!
# TypedTables — writing YAML

A document in block style. A map stands under its key, indented by two
blanks; a list stands under its key without further indentation. A text is
left unquoted where it reads back as that text, put in single quotes where
not, written line by line where it has line breaks, and in double quotes
with escapes where it has characters that none of these can hold.

The texts here take the level they stand at: the column of the block for
lists and maps, and for scalars the column of further lines.
-/

namespace TypedTables

namespace Yaml

/-- Reals keep a point or an exponent, so that they read back as reals. -/
def realLayout : RealLayout :=
  { plain := some (-5, 15), positiveExponent := "", tie := .toEven, nan := ".nan", infinity := ".inf" }

/-- Whether a first character, with the one after it, marks something else
than plain text. -/
def isIndicator (c : Char) (next : Option Char) : Bool :=
  isReserved c || ((c == '-' || c == '?' || c == ':') && next.all isGap)

/-- Whether a text has a colon before a gap or a comment mark after one. -/
def hasInnerIndicator : Bool → List Char → Bool
  | _, [] => false
  | afterGap, c :: cs =>
    (c == ':' && startsWithGap cs) || (c == '#' && afterGap) || hasInnerIndicator (isGap c) cs

/-- Whether the syntax lets a text stand unquoted in block style. -/
def isPlainText (cs : List Char) : Bool :=
  match cs with
  | [] => false
  | c :: rest =>
    !isIndicator c rest.head? && !hasInnerIndicator (isGap c) rest && !cs.any isBreak &&
      c != ' ' && cs.getLast? != some ' ' && !(cs.take 3 == ['-', '-', '-']) &&
      !(cs.take 3 == ['.', '.', '.'])

/-- Whether a text without quotes would be read as something else. -/
def isAmbiguous (s : String) : Bool :=
  isZeroPadded s.toList ||
    match resolve s with
    | .text _ => false
    | _ => true

/-- The digits of a number in base sixteen, filled up to a width. -/
def hexText (width n : Nat) : List Char :=
  let digits := (Nat.toDigits 16 n).map Char.toUpper
  List.replicate (width - digits.length) '0' ++ digits

/-- A character as it stands between double quotes. -/
def escapeChar (c : Char) : List Char :=
  let n := c.toNat
  match c with
  | '"' => ['\\', '"']
  | '\\' => ['\\', '\\']
  | '\n' => ['\\', 'n']
  | '\t' => ['\\', 't']
  | '\r' => ['\\', 'r']
  | c =>
    if isPrintable c && !isBreak c then [c]
    else if n = 0 then ['\\', '0']
    else if n = 7 then ['\\', 'a']
    else if n = 8 then ['\\', 'b']
    else if n = 11 then ['\\', 'v']
    else if n = 12 then ['\\', 'f']
    else if n = 27 then ['\\', 'e']
    else if n = 0x85 then ['\\', 'N']
    else if n = 0x2028 then ['\\', 'L']
    else if n = 0x2029 then ['\\', 'P']
    else if n < 0x100 then '\\' :: 'x' :: hexText 2 n
    else if n < 0x10000 then '\\' :: 'u' :: hexText 4 n
    else '\\' :: 'U' :: hexText 8 n

/-- A text in double quotes. -/
def doubleQuoted (s : String) : String := String.ofList ('"' :: s.toList.flatMap escapeChar ++ ['"'])

/-- Whether a blank stands right before a line break. -/
def hasBlankBeforeBreak : List Char → Bool
  | c :: d :: cs => (c == ' ' && isBreak d) || hasBlankBeforeBreak (d :: cs)
  | _ => false

/-- Whether a blank stands right behind a line break. -/
def hasBlankAfterBreak : List Char → Bool
  | c :: d :: cs => (isBreak c && d == ' ') || hasBlankAfterBreak (d :: cs)
  | _ => false

def blanks (n : Nat) : List Char := List.replicate n ' '

def endsWithBreak (cs : List Char) : Bool := cs.getLast?.any isBreak

/-- The characters of a text, with blanks up to a column where a line starts
that is not empty. -/
def indented (column : Nat) (atLineStart : Bool) : List Char → List Char
  | [] => []
  | c :: cs =>
    (if atLineStart && !isBreak c then blanks column else []) ++ c :: indented column (isBreak c) cs

/-- A text in single quotes, its own ones doubled. -/
def singleQuoted (column : Nat) (cs : List Char) : String :=
  let doubled := cs.flatMap fun c => if c = '\'' then ['\'', '\''] else [c]
  let ending := if endsWithBreak cs then blanks column else []
  String.ofList ('\'' :: indented column false doubled ++ ending ++ ['\''])

/-- The mark of a text line by line: whether its indentation has to be said,
as it starts with a blank or a break, and what is at its end. -/
def literalHeader (cs : List Char) : String :=
  let hint := if cs.head?.any fun c => c == ' ' || isBreak c then "2" else ""
  let chomp :=
    match cs.reverse with
    | [c] => if isBreak c then "+" else "-"
    | c :: d :: _ => if isBreak c then if isBreak d then "+" else "" else "-"
    | [] => "-"
  "|" ++ hint ++ chomp

/-- A text line by line. -/
def literalText (column : Nat) (cs : List Char) : String :=
  literalHeader cs ++ "\n" ++ String.ofList (indented column true cs)

/-- A text in the simplest way that reads back as it. -/
def scalarText (column : Nat) (s : String) : String :=
  let cs := s.toList
  if !cs.all isPrintable || hasBlankBeforeBreak cs then doubleQuoted s
  else if cs.contains '\n' then
    if cs.getLast? == some ' ' then doubleQuoted s else literalText column cs
  else if !isAmbiguous s && isPlainText cs then s
  else if hasBlankAfterBreak cs then doubleQuoted s
  else singleQuoted column cs

/-- Whether a key can stand before its colon: it has no line breaks and is
not too long. -/
def isSimpleKey (key : String) : Bool := !key.toList.any isBreak && key.utf8ByteSize ≤ 128

/-- A text with the break at its end. A text line by line may have it already. -/
def ended (s : String) : String := if endsWithBreak s.toList then s else s ++ "\n"

/-- What comes before a line of a block. -/
def margin (column : Nat) : String := String.ofList (blanks column)

mutual

/-- A document that starts at a column. Its last line is ended. -/
def block (column : Nat) : Document → String
  | .null | .unreadable => "null\n"
  | .bool b => (if b then "true" else "false") ++ "\n"
  | .integer n => toString n ++ "\n"
  | .real x => realLayout.render x ++ "\n"
  | .text s | .plain s | .tagged _ _ s => ended (scalarText column s)
  | .list [] => "[]\n"
  | .list (d :: ds) => items column (d :: ds)
  | .map [] => "\x7b\x7d\n"
  | .map (d :: ds) => members column (d :: ds)

/-- The items of a list. The first one starts at the column already. -/
def items (column : Nat) : List Document → String
  | [] => ""
  | [d] => "- " ++ block (column + 2) d
  | d :: ds => "- " ++ block (column + 2) d ++ margin column ++ items column ds

/-- The members of a map. A key that is not simple stands behind a question
mark, and its value behind a colon below. -/
def members (column : Nat) : List (String × Document) → String
  | [] => ""
  | [(key, d)] => member column key d
  | (key, d) :: rest => member column key d ++ margin column ++ members column rest

def member (column : Nat) (key : String) (d : Document) : String :=
  if isSimpleKey key then
    scalarText (column + 2) key ++ ":" ++
      match d with
      | .list (d :: ds) => "\n" ++ margin column ++ items column (d :: ds)
      | .map (d :: ds) => "\n" ++ margin (column + 2) ++ members (column + 2) (d :: ds)
      | d => " " ++ block (column + 2) d
  else
    "? " ++ ended (scalarText (column + 2) key) ++ margin column ++ ": " ++ block (column + 2) d

end

/-- The text of a document. -/
def print (d : Document) : String :=
  match d with
  | .list _ | .map _ => block 0 d
  | d => block 2 d

end Yaml

end TypedTables

import TypedTables.Document.Yaml.Character
/-!
# TypedTables — places in a YAML text

Structure in a YAML text is told by lines and columns, so a reader carries
with the text that is left the position of its first character. Between two
words stand blanks, line breaks and comments, which `skip` passes over.
-/

namespace TypedTables

namespace Yaml

structure Position where
  /-- The number of characters before. -/
  index : Nat := 0
  line : Nat := 0
  column : Nat := 0
deriving Repr, DecidableEq

/-- The position behind a character. -/
def Position.after (p : Position) (c : Char) : Position :=
  if isBreak c then ⟨p.index + 1, p.line + 1, 0⟩ else ⟨p.index + 1, p.line, p.column + 1⟩

/-- Where a reader stands: a position, and the text from there on. -/
structure Place where
  position : Position
  rest : List Char
deriving Repr

namespace Place

/-- The start of a text. -/
def ofText (text : List Char) : Place := ⟨{}, text⟩

def column (p : Place) : Nat := p.position.column

/-- The place behind the first character. -/
def next (p : Place) : Place :=
  match p.rest with
  | [] => p
  | c :: cs => ⟨p.position.after c, cs⟩

/-- The place some characters further. -/
def advance (p : Place) : Nat → Place
  | 0 => p
  | n + 1 => p.next.advance n

/-- The characters of a class that come next. -/
def takeWhile (p : Place) (isMember : Char → Bool) : List Char := p.rest.takeWhile isMember

/-- The place behind the characters of a class. -/
def dropWhile (p : Place) (isMember : Char → Bool) : Place := p.advance (p.takeWhile isMember).length

def startsWith (p : Place) (isMember : Char → Bool) : Bool := p.rest.head?.any isMember

/-- The start of the next line, if only blanks and a comment come before. -/
def endOfLine? (p : Place) : Option Place :=
  let p := p.dropWhile isSpace
  let p := if p.startsWith (· == '#') then p.dropWhile (!isBreak ·) else p
  if p.rest.isEmpty || p.startsWith isBreak then some p.next else none

end Place

/-- Passes over blanks, breaks and comments. A tab counts as a blank where no
key can follow, and in a flow collection; a new line of a block allows a key.
The mark of a byte order counts as nothing at the start of a line. -/
def skipFrom (inFlow inComment allowsKey : Bool) (p : Position) : List Char → Place × Bool
  | [] => (⟨p, []⟩, allowsKey)
  | c :: cs =>
    if isBreak c then skipFrom inFlow false (allowsKey || !inFlow) (p.after c) cs
    else if inComment || c == ' ' || (c == '\t' && (inFlow || !allowsKey)) ||
        (c.toNat == 0xFEFF && p.column == 0) then
      skipFrom inFlow inComment allowsKey (p.after c) cs
    else if c == '#' then skipFrom inFlow true allowsKey (p.after c) cs
    else (⟨p, c :: cs⟩, allowsKey)

/-- The next place where something stands, and whether a key can stand there. -/
def Place.skip (p : Place) (inFlow allowsKey : Bool) : Place × Bool :=
  skipFrom inFlow false allowsKey p.position p.rest

/-- Whether a text starts with three times the given character, by itself. -/
def isMarker (mark : Char) : List Char → Bool
  | a :: b :: c :: rest => a == mark && b == mark && c == mark && startsWithGap rest
  | _ => false

/-- Whether a line starts or ends a document. -/
def isDocumentMark (line : List Char) : Bool := isMarker '-' line || isMarker '.' line

/-- A text in which the breaks of one meaning are one character. -/
def unifyBreaks : List Char → List Char
  | '\r' :: '\n' :: cs => '\n' :: unifyBreaks cs
  | c :: cs => (if c == '\r' || c.toNat == 0x85 then '\n' else c) :: unifyBreaks cs
  | [] => []

end Yaml

end TypedTables

/-!
# TypedTables — blanks and lines

The characters that count as blank space: the Unicode property
`White_Space`, in full and not only its ASCII part. A name made of them
alone is no name, and a declared type is read with them taken out.

A text has lines. A break ends a line, so one at the end of the text
opens no further line; a carriage return belongs to the break that follows
it.
-/

namespace TypedTables

namespace Text

/-- Whether a character has the Unicode property `White_Space`. -/
def isBlank (c : Char) : Bool :=
  let n := c.toNat
  (9 ≤ n && n ≤ 13) || n == 32 || n == 0x85 || n == 0xA0 || n == 0x1680 ||
    (0x2000 ≤ n && n ≤ 0x200A) || n == 0x2028 || n == 0x2029 || n == 0x202F ||
    n == 0x205F || n == 0x3000

/-- Whether a text is empty or made of blank characters alone. -/
def allBlank (s : String) : Bool := s.toList.all isBlank

/-- A text without its blank characters, wherever they stand. -/
def withoutBlanks (s : String) : String := String.ofList (s.toList.filter fun c => !isBlank c)

/-! ## Lines -/

/-- A line without the carriage return at its end. -/
def dropReturn (line : List Char) : List Char :=
  if line.getLast? == some '\r' then line.dropLast else line

/-- The lines of a text, whose first characters are given in reverse. -/
def linesFrom (taken : List Char) : List Char → List (List Char)
  | [] => if taken.isEmpty then [] else [taken.reverse]
  | c :: cs =>
    if c = '\n' then dropReturn taken.reverse :: linesFrom [] cs else linesFrom (c :: taken) cs

/-- The lines of a text. -/
def lines (s : String) : List String := (linesFrom [] s.toList).map String.ofList

end Text

end TypedTables

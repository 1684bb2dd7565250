import TypedTables.Decimal.Numeral
import TypedTables.Document.Yaml.Place
/-!
# TypedTables — scalars line by line

Behind a bar a text stands line by line as it is; behind an angle bracket a
single break between two lines counts as a blank. The lines of the text are
indented further than the block they stand in, by as much as the first of
them or as the header says. The header also says what becomes of the breaks
at the end.
-/

namespace TypedTables

namespace Yaml

/-- What happens to the line breaks at the end of a text. -/
inductive Chomping
  | strip
  | clip
  | keep
deriving Repr, DecidableEq

/-- What the header of a text says. -/
structure LineHeader where
  chomping : Chomping := .clip
  /-- The indentation beyond the block, where it is given. -/
  indent : Option Nat := none

def chomping? (c : Char) : Option Chomping :=
  if c == '+' then some .keep else if c == '-' then some .strip else none

/-- The header at the start of a text, and how many characters it takes. An
indentation of zero is refused. -/
def lineHeader? (cs : List Char) : Option (LineHeader × Nat) :=
  let indent? := fun (d : Char) => Numeral.digit? d
  match cs.head?.bind chomping? with
  | some chomping =>
    match (cs.drop 1).head?.bind indent? with
    | some 0 => none
    | some n => some (⟨chomping, some n⟩, 2)
    | none => some (⟨chomping, none⟩, 1)
  | none =>
    match cs.head?.bind indent? with
    | some 0 => none
    | some n =>
      match (cs.drop 1).head?.bind chomping? with
      | some chomping => some (⟨chomping, some n⟩, 2)
      | none => some (⟨.clip, some n⟩, 1)
    | none => some ({}, 0)

/-- A line with the break at its end. Only the last line of a text has none. -/
structure Line where
  text : List Char
  ending : Option Char

/-- The lines of a text. The last one may be empty. -/
def splitLines : List Char → List Line
  | [] => [⟨[], none⟩]
  | c :: cs =>
    if isBreak c then ⟨[], some c⟩ :: splitLines cs
    else
      match splitLines cs with
      | line :: lines => { line with text := c :: line.text } :: lines
      | [] => [⟨[c], none⟩]

namespace Line

/-- The number of blanks at the start of a line. -/
def leading (l : Line) : Nat := (l.text.takeWhile (· == ' ')).length

def length (l : Line) : Nat := l.text.length + l.ending.toList.length

end Line

/-- The indentation of a text: that of its first line with something on it,
if no blank line before is longer. A tab at the start of such a line is
refused. -/
def detectIndent? (widest : Nat) : List Line → Option Nat
  | [] => some widest
  | line :: lines =>
    let widest := max widest line.leading
    match line.text.drop line.leading, line.ending with
    | [], some _ => detectIndent? widest lines
    | c :: _, _ => if c == '\t' then none else some widest
    | [], none => some widest

/-- What is read of a text before one of its lines. -/
structure LineText where
  /-- The characters, last one first. -/
  taken : List Char := []
  /-- The break after the last line with something on it. -/
  ending : List Char := []
  /-- The breaks of the blank lines since then, last one first. -/
  blankLines : List Char := []
  /-- Whether the last line started with a blank. -/
  isIndented : Bool := false
  /-- The number of characters that were passed. -/
  passed : Nat := 0

namespace LineText

/-- The text with another line. Where breaks fold, one between two lines that
are not indented further is a blank. -/
def push (t : LineText) (folds : Bool) (content : List Char) (ending : Option Char) : LineText :=
  let isIndented := content.head?.any isSpace
  let gap :=
    if folds && t.ending == ['\n'] && !t.isIndented && !isIndented then
      if t.blankLines.isEmpty then [' '] else t.blankLines
    else t.blankLines ++ t.ending
  { t with
    taken := content.reverse ++ gap ++ t.taken
    ending := ending.toList
    blankLines := []
    isIndented := isIndented }

/-- The text with its end as the header says. -/
def chomp (t : LineText) (chomping : Chomping) : String :=
  let ending :=
    match chomping with
    | .strip => []
    | .clip => t.ending
    | .keep => t.blankLines ++ t.ending
  String.ofList (ending ++ t.taken).reverse

/-- Reads the lines of a text, up to the first that is indented less. -/
def readLines? (folds : Bool) (indent : Nat) (t : LineText) : List Line → Option LineText
  | [] => some t
  | line :: lines =>
    let blanks := min indent line.leading
    match line.text.drop blanks, line.ending with
    | [], some b =>
      readLines? folds indent
        { t with blankLines := b :: t.blankLines, passed := t.passed + line.length } lines
    | [], none => some { t with passed := t.passed + blanks }
    | c :: cs, ending =>
      if blanks < indent then if c == '\t' then none else some { t with passed := t.passed + blanks }
      else
        readLines? folds indent
          { t.push folds (c :: cs) ending with passed := t.passed + line.length } lines

end LineText

/-- Reads the text whose mark is at the place, with the place behind it. The
block it stands in has an indentation, or minus one at the outside. -/
def readLineText? (folds : Bool) (indent : Int) (p : Place) : Option (String × Place) := do
  let p := p.next
  let (header, width) ← lineHeader? p.rest
  let start ← (p.advance width).endOfLine?
  let lines := splitLines start.rest
  let column ←
    match header.indent with
    | some n => some ((max 0 indent).toNat + n)
    | none => detectIndent? (max 1 (indent + 1)).toNat lines
  let t ← LineText.readLines? folds column {} lines
  return (t.chomp header.chomping, start.advance t.passed)

end Yaml

end TypedTables

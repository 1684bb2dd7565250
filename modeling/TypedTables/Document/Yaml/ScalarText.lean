import TypedTables.Document.Json.Reader
import TypedTables.Document.Yaml.Place
/-!
# TypedTables — scalars within lines

A scalar is written without quotes, in single quotes or in double quotes. Its
text may run over several lines: one break between two lines counts as a
blank, and of more breaks all but the first count. The separators of lines
and of paragraphs are breaks that always count.
-/

namespace TypedTables

namespace Yaml

/-- What stands between two words of a scalar: blanks within a line or line
breaks, in both cases last one first. -/
structure Gap where
  blanks : List Char := []
  breaks : List Char := []
  /-- Whether the first break was taken away by a backslash. -/
  isJoined : Bool := false

namespace Gap

def hasBreak (g : Gap) : Bool := g.isJoined || !g.breaks.isEmpty

/-- What a gap stands for, last character first. -/
def folded (g : Gap) : List Char :=
  if g.isJoined then g.breaks
  else
    match g.breaks.reverse with
    | [] => g.blanks
    | ['\n'] => [' ']
    | '\n' :: breaks => breaks.reverse
    | _ => g.breaks

/-- The gap with one more blank. Blanks around line breaks do not count. -/
def pushBlank (g : Gap) (c : Char) : Gap :=
  if g.hasBreak then g else { g with blanks := c :: g.blanks }

def pushBreak (g : Gap) (c : Char) : Gap := { g with breaks := c :: g.breaks }

def isEmpty (g : Gap) : Bool := g.blanks.isEmpty && !g.hasBreak

end Gap

/-- A scalar that was read, and the place behind it. -/
structure ScalarText where
  text : String
  place : Place
  /-- Whether the place behind is on a later line than the text. -/
  isLineEnd : Bool := false

/-- Whether an unquoted text can start here. -/
def startsPlain (inFlow : Bool) : List Char → Bool
  | [] => false
  | c :: cs =>
    if c == '-' then !startsWithGap cs
    else if c == '?' || c == ':' then !inFlow && !startsWithGap cs
    else !(isGap c || isReserved c)

/-- The rest of an unquoted text. It ends before a colon at the end of a word,
before a comment, before the marks of a flow collection inside one, before a
line in a column that is less than the given one, and before a line that
starts or ends a document. A colon right before a flow mark is refused. -/
def readPlain (inFlow : Bool) (indent : Int) (taken : List Char) (gap : Gap) (p : Position) :
    List Char → Option ScalarText
  | [] => some ⟨String.ofList taken.reverse, ⟨p, []⟩, gap.hasBreak⟩
  | c :: cs =>
    let ends : ScalarText := ⟨String.ofList taken.reverse, ⟨p, c :: cs⟩, gap.hasBreak⟩
    if isBreak c then readPlain inFlow indent taken (gap.pushBreak c) (p.after c) cs
    else if isSpace c then
      if c == '\t' && gap.hasBreak && (p.column : Int) < indent then none
      else readPlain inFlow indent taken (gap.pushBlank c) (p.after c) cs
    else if gap.hasBreak && !inFlow && (p.column : Int) < indent then some ends
    else if p.column = 0 && isDocumentMark (c :: cs) then some ends
    else if !gap.isEmpty && c == '#' then some ends
    else if inFlow && c == ':' && (cs.head?.any fun d => isFlowMark d || d == '?') then none
    else if c == ':' && startsWithGap cs then some ends
    else if inFlow && isFlowMark c then some ends
    else readPlain inFlow indent (c :: (gap.folded ++ taken)) {} (p.after c) cs

/-- The rest of a text in single quotes, in which a quote is written twice. -/
def readSingle (taken : List Char) (gap : Gap) (p : Position) : List Char → Option ScalarText
  | [] => none
  | '\'' :: '\'' :: cs =>
    readSingle ('\'' :: (gap.folded ++ taken)) {} ((p.after '\'').after '\'') cs
  | c :: cs =>
    if c == '\'' then
      some ⟨String.ofList (gap.folded ++ taken).reverse, ⟨p.after c, cs⟩, false⟩
    else if isBreak c then readSingle taken (gap.pushBreak c) (p.after c) cs
    else if isSpace c then readSingle taken (gap.pushBlank c) (p.after c) cs
    else if p.column = 0 && isDocumentMark (c :: cs) then none
    else readSingle (c :: (gap.folded ++ taken)) {} (p.after c) cs

/-- The number of some hexadecimal digits. -/
def hexNumber? (digits : List Char) : Option Nat :=
  digits.foldl (fun n? c => do return 16 * (← n?) + (← Json.hexValue? c)) (some 0)

/-- The character of an escape with a given number of hexadecimal digits. -/
def escapeNumber? (width : Nat) (cs : List Char) : Option (Char × Nat) := do
  if cs.length < width then none
  else
    let n ← hexNumber? (cs.take width)
    if n < 0xD800 || (0xDFFF < n && n ≤ 0x10FFFF) then return (Char.ofNat n, width + 1) else none

/-- The character of an escape, and how many characters after the backslash
it takes. -/
def escape? : List Char → Option (Char × Nat)
  | [] => none
  | c :: cs =>
    match c with
    | '0' => some (Char.ofNat 0, 1)
    | 'a' => some (Char.ofNat 7, 1)
    | 'b' => some (Char.ofNat 8, 1)
    | 't' | '\t' => some ('\t', 1)
    | 'n' => some ('\n', 1)
    | 'v' => some (Char.ofNat 11, 1)
    | 'f' => some (Char.ofNat 12, 1)
    | 'r' => some ('\r', 1)
    | 'e' => some (Char.ofNat 27, 1)
    | ' ' => some (' ', 1)
    | '"' => some ('"', 1)
    | '/' => some ('/', 1)
    | '\\' => some ('\\', 1)
    | 'N' => some (Char.ofNat 0x85, 1)
    | '_' => some (Char.ofNat 0xA0, 1)
    | 'L' => some (Char.ofNat 0x2028, 1)
    | 'P' => some (Char.ofNat 0x2029, 1)
    | 'x' => escapeNumber? 2 cs
    | 'u' => escapeNumber? 4 cs
    | 'U' => escapeNumber? 8 cs
    | _ => none

/-- The rest of a text in double quotes. A backslash starts an escape; at the
end of a line it takes the break away. `skipped` counts the characters of an
escape that are still to be passed over. -/
def readDouble (taken : List Char) (gap : Gap) (skipped : Nat) (p : Position) :
    List Char → Option ScalarText
  | [] => none
  | c :: cs =>
    match skipped with
    | skipped + 1 => readDouble taken gap skipped (p.after c) cs
    | 0 =>
      if c == '"' then
        some ⟨String.ofList (gap.folded ++ taken).reverse, ⟨p.after c, cs⟩, false⟩
      else if isBreak c then readDouble taken (gap.pushBreak c) 0 (p.after c) cs
      else if isSpace c then readDouble taken (gap.pushBlank c) 0 (p.after c) cs
      else if p.column = 0 && isDocumentMark (c :: cs) then none
      else if c == '\\' then
        if cs.head?.any isBreak then
          readDouble (gap.folded ++ taken) { isJoined := true } 1 (p.after c) cs
        else
          match escape? cs with
          | some (e, width) => readDouble (e :: (gap.folded ++ taken)) {} width (p.after c) cs
          | none => none
      else readDouble (c :: (gap.folded ++ taken)) {} 0 (p.after c) cs

end Yaml

end TypedTables

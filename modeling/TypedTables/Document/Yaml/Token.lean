import TypedTables.Document
import TypedTables.Document.Yaml.LineText
import TypedTables.Document.Yaml.ScalarText
import TypedTables.Document.Yaml.Tag
/-!
# TypedTables — the tokens of a YAML text

A YAML text as a list of marks and scalars. Blocks have marks of their own:
a block starts where a dash or a key stands further to the right than the
block around it, and ends before the first token further to the left. That a
scalar is a key shows only at the colon behind it, so the mark of a key, and
of the block that it starts, are put in before tokens that are already read.
-/

namespace TypedTables

namespace Yaml

inductive Token
  | directive (d : Directive)
  | documentStart
  | documentEnd
  | blockList
  | blockMap
  | blockEnd
  | openBracket
  | closeBracket
  | openBrace
  | closeBrace
  | dash
  | comma
  /-- In front of a key. -/
  | key
  /-- Between a key and its value. -/
  | value
  /-- A reference to the node of a name. -/
  | reference (name : String)
  | anchor (name : String)
  | tag (t : Tag)
  | scalar (style : ScalarStyle) (text : String)
deriving Repr, DecidableEq

/-- The start of what may turn out to be a key. -/
structure KeyStart where
  /-- The number of tokens before it. -/
  count : Nat
  position : Position
  /-- Whether nothing but a key can stand there. -/
  isRequired : Bool

/-- A key has to stand on one line, and not too far before its colon. -/
def KeyStart.reaches (k : KeyStart) (p : Position) : Bool :=
  p.line ≤ k.position.line && p.index ≤ k.position.index + 1024

/-- What is known of a text while its tokens are read. -/
structure Lexer where
  place : Place
  /-- The tokens so far, last one first. -/
  tokens : List Token := []
  /-- The column of the innermost block, or minus one. -/
  indent : Int := -1
  /-- The columns of the blocks around it. -/
  outerIndents : List Int := []
  /-- What may be a key in the innermost flow collection. -/
  keyStart : Option KeyStart := none
  /-- The same for the flow collections around it, and for the block. -/
  outerKeyStarts : List (Option KeyStart) := []
  /-- Whether a key can stand at the place. -/
  allowsKey : Bool := true

namespace Lexer

def inFlow (l : Lexer) : Bool := !l.outerKeyStarts.isEmpty

def column (l : Lexer) : Nat := l.place.column

def push (l : Lexer) (t : Token) : Lexer := { l with tokens := t :: l.tokens }

/-- The tokens with another one in front of all but the first few. -/
def insert (l : Lexer) (count : Nat) (t : Token) : Lexer :=
  let later := l.tokens.length - count
  { l with tokens := l.tokens.take later ++ t :: l.tokens.drop later }

/-- Starts a block at a column, if that is further to the right than the
block so far. -/
def openBlock (l : Lexer) (column count : Nat) (t : Token) : Lexer :=
  if !l.inFlow && l.indent < column then
    { l.insert count t with indent := column, outerIndents := l.indent :: l.outerIndents }
  else l

/-- Ends the blocks that are further to the right than a column. -/
def closeFrom (column indent : Int) (tokens : List Token) : List Int → List Token × Int × List Int
  | [] => (tokens, indent, [])
  | outer :: rest =>
    if column < indent then closeFrom column outer (.blockEnd :: tokens) rest
    else (tokens, indent, outer :: rest)

def closeBlocks (l : Lexer) (column : Int) : Lexer :=
  if l.inFlow then l
  else
    let (tokens, indent, outer) := closeFrom column l.indent l.tokens l.outerIndents
    { l with tokens := tokens, indent := indent, outerIndents := outer }

/-- Gives up that the last candidate is a key. -/
def dropKey (l : Lexer) : Option Lexer :=
  if l.keyStart.any (·.isRequired) then none else some { l with keyStart := none }

/-- Takes the next token as a candidate for a key, where one can stand. -/
def saveKey (l : Lexer) : Option Lexer := do
  if l.allowsKey then
    let start : KeyStart := ⟨l.tokens.length, l.place.position, !l.inFlow && l.indent == l.column⟩
    return { ← l.dropKey with keyStart := some start }
  else return l

/-- Passes over what stands between two tokens, and ends the blocks that the
next token does not belong to. -/
def skip (l : Lexer) : Lexer :=
  let (place, allowsKey) := l.place.skip l.inFlow l.allowsKey
  { l with place := place, allowsKey := allowsKey }.closeBlocks place.column

/-- Leaves all blocks, before the start or the end of a document. -/
def leaveBlocks (l : Lexer) : Option Lexer := do
  return { ← (l.closeBlocks (-1)).dropKey with allowsKey := false }

/-- The token of some characters at the place. -/
def mark (l : Lexer) (width : Nat) (t : Token) (allowsKey : Bool) : Lexer :=
  { l.push t with place := l.place.advance width, allowsKey := allowsKey }

def openFlow (l : Lexer) (t : Token) : Option Lexer := do
  let l ← l.saveKey
  return { l.mark 1 t true with keyStart := none, outerKeyStarts := l.keyStart :: l.outerKeyStarts }

def closeFlow (l : Lexer) (t : Token) : Option Lexer := do
  let l := (← l.dropKey).mark 1 t false
  match l.outerKeyStarts with
  | [] => return l
  | start :: outer => return { l with keyStart := start, outerKeyStarts := outer }

def readDash (l : Lexer) : Option Lexer := do
  if l.inFlow || l.allowsKey then
    return (← (l.openBlock l.column l.tokens.length .blockList).dropKey).mark 1 .dash true
  else none

/-- A question mark, in front of a key that need not be a scalar. -/
def readKeyMark (l : Lexer) : Option Lexer := do
  if l.inFlow || l.allowsKey then
    return (← (l.openBlock l.column l.tokens.length .blockMap).dropKey).mark 1 .key (!l.inFlow)
  else none

/-- A colon. What comes before it on its line is the key; where that cannot
be one, the key was announced before. -/
def readColon (l : Lexer) : Option Lexer :=
  match l.keyStart.filter (·.reaches l.place.position) with
  | some start =>
    let l := (l.insert start.count .key).openBlock start.position.column start.count .blockMap
    some { l.mark 1 .value false with keyStart := none }
  | none =>
    if l.keyStart.any (·.isRequired) then none
    else if l.inFlow then some { l.mark 1 .value false with keyStart := none }
    else if l.allowsKey then
      some { (l.openBlock l.column l.tokens.length .blockMap).mark 1 .value true with keyStart := none }
    else none

/-- A token that can be a key, as it is read at the place. -/
def candidate (l : Lexer) (read : Place → Option (Token × Place)) : Option Lexer := do
  let l ← l.saveKey
  let (t, place) ← read l.place
  return { l.push t with place := place, allowsKey := false }

def readLines (l : Lexer) (folds : Bool) : Option Lexer := do
  let l ← l.dropKey
  let (text, place) ← readLineText? folds l.indent l.place
  return { l.push (.scalar .literal text) with place := place, allowsKey := true }

def readText (l : Lexer) (style : ScalarStyle) (read : Place → Option ScalarText) : Option Lexer := do
  let l ← l.saveKey
  let s ← read l.place
  return { l.push (.scalar style s.text) with place := s.place, allowsKey := s.isLineEnd }

/-- A text in quotes; `read` reads on behind the first one. -/
def readQuoted (l : Lexer) (read : Position → List Char → Option ScalarText) : Option Lexer :=
  l.readText .quoted fun p => read p.next.position p.next.rest

/-- Reads the token that starts with a character. -/
def readToken (l : Lexer) (c : Char) (cs : List Char) : Option Lexer := do
  if l.column = 0 && c == '%' then
    let l ← l.leaveBlocks
    let (d, place) ← readDirective? l.place
    return { l.push (.directive d) with place := place }
  else if l.column = 0 && isMarker '-' (c :: cs) then
    return (← l.leaveBlocks).mark 3 .documentStart false
  else if l.column = 0 && isMarker '.' (c :: cs) then
    return (← l.leaveBlocks).mark 3 .documentEnd false
  else
    match c with
    | '[' => l.openFlow .openBracket
    | '\x7b' => l.openFlow .openBrace
    | ']' => l.closeFlow .closeBracket
    | '\x7d' => l.closeFlow .closeBrace
    | ',' => return (← l.dropKey).mark 1 .comma true
    | '*' => l.candidate fun p => (readName? p).map fun (name, q) => (.reference name, q)
    | '&' => l.candidate fun p => (readName? p).map fun (name, q) => (.anchor name, q)
    | '!' => l.candidate fun p => (readTag? l.inFlow p).map fun (t, q) => (.tag t, q)
    | '\'' => l.readQuoted (readSingle [] {})
    | '"' => l.readQuoted (readDouble [] {} 0)
    | _ =>
      if c == '-' && startsWithGap cs then l.readDash
      else if c == '?' && (l.inFlow || startsWithGap cs) then l.readKeyMark
      else if c == ':' && (l.inFlow || startsWithGap cs) then l.readColon
      else if (c == '|' || c == '>') && !l.inFlow then l.readLines (c == '>')
      else if startsPlain l.inFlow (c :: cs) then
        l.readText .plain fun p => readPlain l.inFlow (l.indent + 1) [] {} p.position p.rest
      else none

/-- Reads all tokens. Every token takes a character, so that as many steps
are enough. -/
def run : Nat → Lexer → Option (List Token)
  | 0, _ => none
  | fuel + 1, l =>
    let l := l.skip
    match l.place.rest with
    | [] => do return (← l.leaveBlocks).tokens.reverse
    | c :: cs => do run fuel (← l.readToken c cs)

end Lexer

/-- The tokens of a text. Control characters are refused. -/
def Token.ofText? (text : String) : Option (List Token) :=
  let cs := unifyBreaks text.toList
  if cs.all isAllowed then Lexer.run (cs.length + 1) { place := .ofText cs } else none

end Yaml

end TypedTables

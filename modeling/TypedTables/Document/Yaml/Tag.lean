import TypedTables.Document.Json.Reader
import TypedTables.Document.Yaml.Place
import TypedTables.Text.Utf8
/-!
# TypedTables — anchors, tags and directives

A node of a YAML text may have a name that other places refer to, and a tag
that says of which type it is. A tag is written as a handle, which stands for
the start of the tag, with the rest behind it, or as a whole in angle
brackets. Directives before a document give its version and say what handles
stand for.
-/

namespace TypedTables

namespace Yaml

/-- Characters of names and of handles. -/
def isWordChar (c : Char) : Bool :=
  ('0' ≤ c && c ≤ '9') || ('a' ≤ c && c ≤ 'z') || ('A' ≤ c && c ≤ 'Z') || c == '_' || c == '-'

/-- Characters of tags. Within brackets there are some more. -/
def isTagChar (inBrackets : Bool) (c : Char) : Bool :=
  isWordChar c || ";/?:@&=+$.%!~*'()".toList.contains c || (inBrackets && ",[]".toList.contains c)

/-- The number of bytes that follow a first byte of a character. -/
def followers? (byte : Nat) : Option Nat :=
  if byte < 0x80 then some 0
  else if 0xC0 ≤ byte && byte < 0xE0 then some 1
  else if 0xE0 ≤ byte && byte < 0xF0 then some 2
  else if 0xF0 ≤ byte && byte < 0xF8 then some 3
  else none

/-- The bytes of a tag, in which a percent sign with two hexadecimal digits
stands for a byte. Bytes of one character have to follow each other. -/
def tagBytes? (following : Nat) : List Char → Option (List UInt8)
  | [] => if following = 0 then some [] else none
  | '%' :: a :: b :: cs => do
    let byte := 16 * (← Json.hexValue? a) + (← Json.hexValue? b)
    let following ←
      if following = 0 then followers? byte
      else if 0x80 ≤ byte && byte < 0xC0 then some (following - 1)
      else none
    return byte.toUInt8 :: (← tagBytes? following cs)
  | c :: cs =>
    if c == '%' || following ≠ 0 then none
    else do return c.toNat.toUInt8 :: (← tagBytes? 0 cs)

/-- The text of a tag, and the place behind it. Bytes that are no text are
a tag without characters. -/
def readTagText? (inBrackets : Bool) (p : Place) : Option (String × Place) := do
  let bytes ← tagBytes? 0 (p.takeWhile (isTagChar inBrackets))
  return ((Text.decode bytes).toOption.getD "", p.dropWhile (isTagChar inBrackets))

/-- A handle at an exclamation mark, with the second one if there is one. -/
def readHandle (p : Place) : String × Place :=
  let word := p.next.takeWhile isWordChar
  let p := p.next.dropWhile isWordChar
  if p.startsWith (· == '!') then (String.ofList ('!' :: word ++ ['!']), p.next)
  else (String.ofList ('!' :: word), p)

/-- A tag as it is written. Without a handle it is meant as a whole. -/
structure Tag where
  handle : String
  suffix : String
deriving Repr, DecidableEq

/-- Reads the tag at an exclamation mark. Behind it comes a gap, or a comma
in a flow collection. -/
def readTag? (inFlow : Bool) (p : Place) : Option (Tag × Place) := do
  let (tag, p) ←
    if p.next.startsWith (· == '<') then do
      let (text, q) ← readTagText? true p.next.next
      if q.position = p.next.next.position then none
      else if q.startsWith (· == '>') then some (Tag.mk "" text, q.next)
      else none
    else do
      let (handle, q) := readHandle p
      let (text, r) ← readTagText? false q
      if 1 < handle.length && handle.endsWith "!" then
        if q.position = r.position then none else some (Tag.mk handle text, r)
      else
        let suffix := (handle.drop 1).toString ++ text
        some (if suffix.isEmpty then Tag.mk "" "!" else Tag.mk "!" suffix, r)
  if startsWithGap p.rest || (inFlow && p.startsWith (· == ',')) then return (tag, p) else none

/-- Reads the name at the mark of an anchor or of a reference to one. -/
def readName? (p : Place) : Option (String × Place) :=
  let name := p.next.takeWhile isWordChar
  let p := p.next.dropWhile isWordChar
  if !name.isEmpty && (startsWithGap p.rest || p.startsWith "?:,]\x7d%@\x60".toList.contains) then
    some (String.ofList name, p)
  else none

/-- What a line with a percent sign says about the document below. -/
inductive Directive
  | version (major minor : Nat)
  | handle (name start : String)
deriving Repr, DecidableEq

/-- A number of at most nine digits. -/
def readVersionNumber? (p : Place) : Option (Nat × Place) :=
  let digits := p.takeWhile Char.isDigit
  if digits.isEmpty || 9 < digits.length then none
  else some (Numeral.ofDigits (digits.filterMap Numeral.digit?), p.dropWhile Char.isDigit)

/-- Reads the directive at a percent sign, up to the next line. -/
def readDirective? (p : Place) : Option (Directive × Place) := do
  let name := String.ofList (p.next.takeWhile isWordChar)
  let p := p.next.dropWhile isWordChar
  if !startsWithGap p.rest then none
  else
    let p := p.dropWhile isSpace
    if name == "YAML" then do
      let (major, p) ← readVersionNumber? p
      if !p.startsWith (· == '.') then none
      else
        let (minor, p) ← readVersionNumber? p.next
        return (.version major minor, ← p.endOfLine?)
    else if name == "TAG" then do
      if !p.startsWith (· == '!') then none
      else
        let (handle, p) := readHandle p
        if !(handle.endsWith "!" && p.startsWith isSpace) then none
        else
          let p := p.dropWhile isSpace
          let (start, q) ← readTagText? true p
          if q.position = p.position || !startsWithGap q.rest then none
          else return (.handle handle start, ← q.endOfLine?)
    else none

end Yaml

end TypedTables

/-!
# TypedTables — characters of YAML

The classes of characters that the syntax of YAML tells apart: line breaks,
blanks within a line, and the characters that may be in a text at all.
-/

namespace TypedTables

namespace Yaml

/-- A line break. -/
def isBreak (c : Char) : Bool :=
  c == '\n' || c == '\r' || c.toNat == 0x85 || c.toNat == 0x2028 || c.toNat == 0x2029

/-- A blank within a line. -/
def isSpace (c : Char) : Bool := c == ' ' || c == '\t'

/-- Whether a character separates words. -/
def isGap (c : Char) : Bool := isSpace c || isBreak c

/-- Whether a text starts with something that separates words, or ends. -/
def startsWithGap : List Char → Bool
  | [] => true
  | c :: _ => isGap c

/-- Whether a character can be written as itself. -/
def isPrintable (c : Char) : Bool :=
  let n := c.toNat
  n == 10 || (32 ≤ n && n ≤ 126) || (0xA0 ≤ n && n ≤ 0xFFFD && n != 0xFEFF) || 0x10000 ≤ n

/-- Whether a YAML text may hold a character. -/
def isAllowed (c : Char) : Bool :=
  isPrintable c || c == '\t' || c == '\r' || c.toNat == 0x85 || c.toNat == 0xFEFF

/-- The marks of a flow collection. -/
def isFlowMark (c : Char) : Bool :=
  c == ',' || c == '[' || c == ']' || c == '\x7b' || c == '\x7d'

/-- Characters that mean something else where an unquoted text could start. -/
def isReserved (c : Char) : Bool :=
  isFlowMark c || "#&*!|>'\"%@".toList.contains c || c.toNat == 0x60

end Yaml

end TypedTables

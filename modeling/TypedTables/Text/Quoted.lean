import TypedTables.Text.Hidden
/-!
# TypedTables — quoted text

A text as a string literal of the generated language. Quotes and
backslashes are escaped, and so is every character that does not show by
itself; the most common of those have a letter, the others are written by
their number. `unquote?` reads a literal back.
-/

namespace TypedTables

namespace Text

/-- A character as it stands in a literal. -/
def quoteChar (c : Char) : List Char :=
  match c with
  | '"' => ['\\', '"']
  | '\\' => ['\\', '\\']
  | '\n' => ['\\', 'n']
  | '\r' => ['\\', 'r']
  | '\t' => ['\\', 't']
  | c =>
    if c.toNat = 0 then ['\\', '0']
    else if isHidden c then ['\\', 'u', '\x7b'] ++ Nat.toDigits 16 c.toNat ++ ['\x7d']
    else [c]

/-- A text as a literal. -/
def quoted (s : String) : String := String.ofList ('"' :: s.toList.flatMap quoteChar ++ ['"'])

/-- The number of hexadecimal digits up to a closing brace, and the rest. -/
def readCodePoint (n : Nat) : List Char → Option (Nat × List Char)
  | [] => none
  | c :: cs =>
    if c == '\x7d' then some (n, cs)
    else if c.isDigit then readCodePoint (16 * n + (c.toNat - '0'.toNat)) cs
    else if 'a' ≤ c && c ≤ 'f' then readCodePoint (16 * n + (c.toNat - 'a'.toNat + 10)) cs
    else none

/-- The rest of a literal after its opening quote, as the text it stands for,
and what comes after it. Every step takes at least one character, so the
length of the text bounds the steps. -/
def readLiteral (taken : List Char) : Nat → List Char → Option (List Char × List Char)
  | 0, _ => none
  | _ + 1, [] => none
  | _ + 1, '"' :: rest => some (taken.reverse, rest)
  | fuel + 1, '\\' :: c :: rest =>
    match c with
    | '"' => readLiteral ('"' :: taken) fuel rest
    | '\\' => readLiteral ('\\' :: taken) fuel rest
    | 'n' => readLiteral ('\n' :: taken) fuel rest
    | 'r' => readLiteral ('\r' :: taken) fuel rest
    | 't' => readLiteral ('\t' :: taken) fuel rest
    | '0' => readLiteral (Char.ofNat 0 :: taken) fuel rest
    | 'u' =>
      match rest with
      | '\x7b' :: rest =>
        match readCodePoint 0 rest with
        | some (n, rest) => readLiteral (Char.ofNat n :: taken) fuel rest
        | none => none
      | _ => none
    | _ => none
  | fuel + 1, c :: rest => if c == '\\' then none else readLiteral (c :: taken) fuel rest

/-- The text that a literal at the start of a text stands for, and the rest. -/
def unquote? : List Char → Option (List Char × List Char)
  | '"' :: rest => readLiteral [] (rest.length + 1) rest
  | _ => none

end Text

end TypedTables

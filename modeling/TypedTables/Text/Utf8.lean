/-!
# TypedTables — characters from bytes

Bytes are read as characters in UTF-8. Where that fails, the fault says at
which byte the readable part ends, and how many bytes of what follows can
be the start of no character at all; it gives no number if the bytes only
end too early.
-/

namespace TypedTables

/-- Why bytes are not UTF-8. -/
structure Utf8Fault where
  /-- The number of bytes before the fault. -/
  index : Nat
  /-- The number of bytes that start no character, unless the bytes end
  within one. -/
  length : Option Nat
deriving Repr, DecidableEq

namespace Utf8Fault

def message (f : Utf8Fault) : String :=
  match f.length with
  | some n => "invalid utf-8 sequence of " ++ toString n ++ " bytes from index " ++ toString f.index
  | none => "incomplete utf-8 byte sequence from index " ++ toString f.index

end Utf8Fault

namespace Text

/-- The bytes that may come second in a character, by its first byte. Long
forms of short characters, halves of pairs and numbers beyond the last
character are left out. -/
def secondBytes (first : Nat) : Nat × Nat :=
  if first = 0xE0 then (0xA0, 0xBF)
  else if first = 0xED then (0x80, 0x9F)
  else if first = 0xF0 then (0x90, 0xBF)
  else if first = 0xF4 then (0x80, 0x8F)
  else (0x80, 0xBF)

/-- The number of bytes of a character, by its first byte. No character
starts with a byte of width zero. -/
def characterWidth (first : Nat) : Nat :=
  if first < 0x80 then 1
  else if first < 0xC2 then 0
  else if first < 0xE0 then 2
  else if first < 0xF0 then 3
  else if first < 0xF5 then 4
  else 0

/-- The bits that the first byte of a character of some width gives to its
number. -/
def leadingBits (width first : Nat) : Nat :=
  if width = 2 then first % 0x20 else if width = 3 then first % 0x10 else first % 0x08

/-- Reads the remaining bytes of a character. The fault is the number of
bytes taken before it, if another byte is there. -/
def continueCharacter (number taken : Nat) (bounds : Nat × Nat) :
    (missing : Nat) → List UInt8 → Except (Option Nat) (Nat × List UInt8)
  | 0, rest => .ok (number, rest)
  | _ + 1, [] => .error none
  | missing + 1, b :: rest =>
    if bounds.1 ≤ b.toNat && b.toNat ≤ bounds.2 then
      continueCharacter (number * 64 + b.toNat % 64) (taken + 1) (0x80, 0xBF) missing rest
    else .error (some taken)

/-- The characters of bytes, from the given index on. The number of bytes
bounds the steps. -/
def decodeFrom (index : Nat) : Nat → List UInt8 → Except Utf8Fault (List Char)
  | _, [] => .ok []
  | 0, _ :: _ => .ok []
  | fuel + 1, b :: rest =>
    let width := characterWidth b.toNat
    if width = 0 then .error ⟨index, some 1⟩
    else if width = 1 then do return Char.ofNat b.toNat :: (← decodeFrom (index + 1) fuel rest)
    else
      match continueCharacter (leadingBits width b.toNat) 1 (secondBytes b.toNat) (width - 1) rest with
      | .error length => .error ⟨index, length⟩
      | .ok (number, rest) => do return Char.ofNat number :: (← decodeFrom (index + width) fuel rest)

/-- The text that bytes stand for. -/
def decode (bytes : List UInt8) : Except Utf8Fault String := do
  return String.ofList (← decodeFrom 0 bytes.length bytes)

end Text

end TypedTables

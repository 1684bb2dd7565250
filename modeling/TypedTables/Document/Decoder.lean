import TypedTables.Document.Yaml.Scalar
/-!
# TypedTables — decoding documents

A `Decoder` reads a document as a value of a type or refuses it. The two
text formats differ in what may stand for what: in YAML an unquoted scalar
is a text or a truth value as expected, and nothing at all is an empty list
or record; in JSON the members of a record may be given by position.
-/

namespace TypedTables

/-- The formats that documents are read from. -/
inductive DocumentFormat
  | json
  | yaml
deriving Repr, DecidableEq

/-- Reads a document of a format as a value, or refuses it. -/
abbrev Decoder (α : Type) := DocumentFormat → Document → Option α

/-- The members of a record by name. -/
structure Members where
  format : DocumentFormat
  entries : List (String × Document)

namespace Members

variable {α : Type}

/-- A member that has to be there. -/
def required (m : Members) (name : String) (decode : Decoder α) : Option α := do
  decode m.format (← m.entries.lookup name)

/-- A member with a value for its absence. -/
def withDefault (m : Members) (name : String) (fallback : α) (decode : Decoder α) : Option α :=
  match m.entries.lookup name with
  | some d => decode m.format d
  | none => some fallback

end Members

namespace Decoder

variable {α : Type}

def text : Decoder String
  | _, .text s | _, .plain s | _, .tagged _ _ s => some s
  | _, _ => none

/-- A truth value. A text in lines is one if its tag says so. -/
def bool : Decoder Bool
  | _, .bool b => some b
  | _, .plain s | _, .tagged _ .plain s => Yaml.boolOfWord? s
  | _, .tagged tag .literal s => if tag == Yaml.boolTag then Yaml.boolOfWord? s else none
  | _, _ => none

/-- A natural number of 64 bits. -/
def word : Decoder Nat
  | _, .integer (.ofNat n) => if n < UInt64.size then some n else none
  | _, _ => none

/-- A value or its absence. With a tag, nothing at all is a value. -/
def optional (decode : Decoder α) : Decoder (Option α)
  | _, .null => some none
  | format, .plain s =>
    if Yaml.isNothing s then some none else (decode format (.plain s)).map some
  | format, .tagged tag .plain s =>
    if tag == Yaml.nullTag then if Yaml.isNullWord s then some none else none
    else (decode format (.tagged tag .plain s)).map some
  | format, d => (decode format d).map some

/-- Whether a document is a scalar without text or quotes. -/
def isBlank : Document → Bool
  | .plain s | .tagged _ .plain s => s.isEmpty
  | _ => false

def list (decode : Decoder α) : Decoder (List α)
  | format, .list items => items.mapM (decode format)
  | _, d => if isBlank d then some [] else none

/-- One of the values that have a name. In JSON the name may also be the key
of a map without content; in YAML it may be the tag of nothing. -/
def named (ofName? : String → Option α) : Decoder α
  | _, .text s | _, .plain s => ofName? s
  | _, .tagged tag style s =>
    match Yaml.localTag? tag with
    | some name => if style = .plain && Yaml.isNothing s then ofName? name else none
    | none => ofName? s
  | .json, .map [(name, .null)] => ofName? name
  | _, _ => none

/-- The pairs of a map with arbitrary keys, in order. -/
def pairs (decode : Decoder α) : Decoder (List (String × α))
  | format, .map entries => entries.mapM fun (name, d) => do return (name, ← decode format d)
  | _, d => if isBlank d then some [] else none

/-- Whether one of the names occurs twice among the entries. -/
def hasRepeated (names : List String) (entries : List (String × Document)) : Bool :=
  names.any fun name => 1 < entries.countP (·.1 == name)

/-- A record with members of the given names, in the order in which they may
be given by position. A closed record has no others. -/
def record (names : List String) (closed : Bool) (read : Members → Option α) : Decoder α
  | format, .map entries =>
    if hasRepeated names entries || (closed && entries.any fun e => !names.contains e.1) then none
    else read ⟨format, entries⟩
  | .json, .list items => if items.length ≤ names.length then read ⟨.json, names.zip items⟩ else none
  | .yaml, d => if isBlank d then read ⟨.yaml, []⟩ else none
  | _, _ => none

end Decoder

end TypedTables

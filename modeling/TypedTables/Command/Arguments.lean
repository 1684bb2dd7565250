/-!
# TypedTables — command-line arguments

How a list of arguments is read as options and words. An option has a long
name and may have a letter; it takes no value, one, or any number of values
up to the next argument that looks like an option. A value can also stand
behind an equals sign, or directly behind the letter. Letters of options
without values can be written together. Some options end the reading, so
that nothing after them can be at fault.
-/

namespace TypedTables

namespace Command

/-- How many values an option takes. -/
inductive Arity
  | none
  | one
  | many
deriving Repr, DecidableEq

/-- What the values of an option can be. -/
inductive ValueForm
  | text
  /-- A path, which is not empty. -/
  | path
  /-- One of some words. Without the option, the standard one is meant. -/
  | choice (words : List String) (standard : String)
deriving Repr, DecidableEq

/-- Whether a text can be a value. -/
def ValueForm.accepts (value : String) : ValueForm → Bool
  | .text => true
  | .path => !value.isEmpty
  | .choice words _ => words.contains value

/-- An option that can be given. -/
structure OptionSpec where
  name : String
  letter : Option Char := Option.none
  arity : Arity := .none
  values : ValueForm := .text
  /-- The word that stands for a value of it. -/
  placeholder : String := ""
  about : String
  isRequired : Bool := false
  /-- Whether nothing is read after it. -/
  isLast : Bool := false
deriving Repr, DecidableEq

/-- An option as it was given. -/
structure GivenOption where
  spec : OptionSpec
  values : List String := []
deriving Repr, DecidableEq

/-- How an argument looks. -/
inductive ArgumentForm
  | word
  /-- Two dashes alone, after which everything is a word. -/
  | terminator
  | long (name : String) (value : Option String)
  | letters (cs : List Char)
deriving Repr, DecidableEq

/-- How an argument looks. A single dash is a word. -/
def ArgumentForm.of (argument : String) : ArgumentForm :=
  match argument.toList with
  | ['-', '-'] => .terminator
  | '-' :: '-' :: cs =>
    match cs.span (· != '=') with
    | (name, []) => .long (String.ofList name) none
    | (name, _ :: value) => .long (String.ofList name) (some (String.ofList value))
  | '-' :: c :: cs => .letters (c :: cs)
  | _ => .word

/-- The options that an argument gives. The last one may still take values. -/
structure Reading where
  given : List GivenOption := []
  unfinished : Option GivenOption := none

/-- Whether nothing is read after the argument. -/
def Reading.isLast (r : Reading) : Bool := r.given.any (·.spec.isLast)

/-- Letters written together. What follows the letter of an option with
values is its value. -/
def readLetters (specs : List OptionSpec) : List Char → Option Reading
  | [] => some {}
  | c :: cs => do
    let spec ← specs.find? fun s => s.letter == some c
    match spec.arity, cs with
    | .none, cs =>
      let rest ← if spec.isLast then pure {} else readLetters specs cs
      return { rest with given := ⟨spec, []⟩ :: rest.given }
    | _, [] => return { unfinished := some ⟨spec, []⟩ }
    | _, '=' :: value => return { given := [⟨spec, [String.ofList value]⟩] }
    | _, value => return { given := [⟨spec, [String.ofList value]⟩] }

/-- An option by its long name. -/
def readLong (specs : List OptionSpec) (name : String) (value : Option String) : Option Reading := do
  let spec ← specs.find? fun s => s.name == name
  match spec.arity, value with
  | .none, none => return { given := [⟨spec, []⟩] }
  | .none, some _ => none
  | _, some v => return { given := [⟨spec, [v]⟩] }
  | _, none => return { unfinished := some ⟨spec, []⟩ }

/-- An option that takes no further values. It needs to have one. -/
def finish : Option GivenOption → Option (List GivenOption)
  | none => some []
  | some g => if g.values.isEmpty then none else some [g]

/-- The options at the start of a list of arguments, and the rest from the
first word on that is no value of an option. -/
def readOptions (specs : List OptionSpec) (unfinished : Option GivenOption) :
    List String → Option (List GivenOption × List String)
  | [] => do return (← finish unfinished, [])
  | argument :: rest => do
    match ArgumentForm.of argument with
    | .word =>
      match unfinished with
      | none => return ([], argument :: rest)
      | some g =>
        let g := { g with values := g.values ++ [argument] }
        if g.spec.arity = .many then readOptions specs (some g) rest
        else
          let (given, words) ← readOptions specs none rest
          return (g :: given, words)
    | .terminator => if rest.isEmpty then return (← finish unfinished, []) else none
    | .long name value => do
      let finished ← finish unfinished
      let reading ← readLong specs name value
      let (given, words) ← if reading.isLast then pure ([], []) else readOptions specs reading.unfinished rest
      return (finished ++ reading.given ++ given, words)
    | .letters cs => do
      let finished ← finish unfinished
      let reading ← readLetters specs cs
      let (given, words) ← if reading.isLast then pure ([], []) else readOptions specs reading.unfinished rest
      return (finished ++ reading.given ++ given, words)

/-- Options that were given together. -/
abbrev Given := List GivenOption

namespace Given

/-- Whether an option was given. -/
def has (g : Given) (name : String) : Bool := g.any fun o => o.spec.name == name

/-- All values of an option. -/
def values (g : Given) (name : String) : List String :=
  (g.filter fun o => o.spec.name == name).flatMap (·.values)

/-- The value of an option that takes one. -/
def value? (g : Given) (name : String) : Option String := (g.values name).head?

/-- Whether no option is given twice, those that gather values aside, and all
values are accepted. -/
def isSound (g : Given) : Bool :=
  g.all fun o =>
    (o.spec.arity == .many || g.countP (fun p => p.spec.name == o.spec.name) == 1) &&
      o.values.all o.spec.values.accepts

end Given

end Command

end TypedTables

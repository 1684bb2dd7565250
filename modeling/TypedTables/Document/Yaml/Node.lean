import TypedTables.Document.Yaml.Token
/-!
# TypedTables — the nodes of a YAML text

The tree that the tokens of a YAML text describe. A node may be a reference
to another one; `Tree` keeps the nodes that references can lead to. Nothing
between a key and the next one, or behind a dash, is an empty scalar.
-/

namespace TypedTables

namespace Yaml

inductive Node
  | scalar (tag : Option String) (style : ScalarStyle) (text : String)
  | list (items : List Node)
  | map (members : List (Node × Node))
  | reference (number : Nat)
deriving Repr, Inhabited

/-- The node of nothing. -/
def Node.empty : Node := .scalar none .plain ""

/-- What is left of a text, and what is known from the part before. -/
structure Reading where
  tokens : List Token
  /-- What handles of tags stand for. -/
  handles : List (String × String) := []
  /-- The numbers of names. -/
  names : List (String × Nat) := []
  /-- Which of the named nodes a number stands for, last one first. -/
  holders : List (Nat × Nat) := []
  /-- The named nodes in the order in which they ended, by the order in which
  they started. -/
  named : List (Nat × Node) := []

abbrev Parse := StateT Reading Option

namespace Parse

/-- The next token. -/
def peek : Parse (Option Token) := do return (← get).tokens.head?

/-- Passes over the next token. -/
def pass : Parse Unit := modify fun r => { r with tokens := r.tokens.drop 1 }

/-- Passes over the next token if it is the given one. -/
def passIf (t : Token) : Parse Bool := do
  if (← peek) == some t then
    pass
    return true
  else return false

/-- Passes over the comma between two entries of a flow collection. -/
def passComma : Parse Unit := do if !(← passIf .comma) then failure

/-- Gives a name to the node that starts. A name gets the number of the names
there are, and a number stands for the node that got it last. -/
def giveName (name : String) : Parse Nat := do
  let r ← get
  let number := r.names.length
  let started := r.holders.length
  set { r with
    names := (name, number) :: r.names.filter (·.1 != name)
    holders := (number, started) :: r.holders }
  return started

/-- The tag that is meant. A handle has to be declared. -/
def resolveTag (t : Tag) : Parse String := do
  if t.handle.isEmpty then return t.suffix
  else
    match (← get).handles.lookup t.handle with
    | some start => return start ++ t.suffix
    | none => failure

/-- The name and the tag in front of a node, in either order. -/
def properties : Parse (Option String × Option Tag) := do
  match ← peek with
  | some (.anchor name) =>
    pass
    match ← peek with
    | some (.tag t) =>
      pass
      return (some name, some t)
    | _ => return (some name, none)
  | some (.tag t) =>
    pass
    match ← peek with
    | some (.anchor name) =>
      pass
      return (some name, some t)
    | _ => return (none, some t)
  | _ => return (none, none)

mutual

/-- A node. Blocks start only where `inBlock` holds, and a list without a
block of its own only behind a key. -/
def node (fuel : Nat) (inBlock behindKey : Bool) : Parse Node :=
  match fuel with
  | 0 => failure
  | fuel + 1 => do
    match ← peek with
    | some (.reference name) =>
      pass
      match (← get).names.lookup name with
      | some number => return .reference number
      | none => failure
    | _ =>
      let (name, written) ← properties
      let tag ← written.mapM resolveTag
      let started ← name.mapM giveName
      let n ← content fuel inBlock behindKey (name.isSome || tag.isSome) tag
      if let some i := started then
        modify fun r => { r with named := (i, n) :: r.named }
      return n

/-- What follows the name and the tag of a node. -/
def content (fuel : Nat) (inBlock behindKey mayBeEmpty : Bool) (tag : Option String) : Parse Node :=
  match fuel with
  | 0 => failure
  | fuel + 1 => do
    match ← peek with
    | some (.scalar style text) =>
      pass
      return .scalar (tag.filter (· != "!")) style text
    | some .openBracket =>
      pass
      return .list (← flowItems fuel [] true)
    | some .openBrace =>
      pass
      return .map (← flowMembers fuel [] true)
    | some .blockList =>
      if inBlock then
        pass
        return .list (← blockItems fuel [])
      else if mayBeEmpty then return .scalar tag .plain ""
      else failure
    | some .blockMap =>
      if inBlock then
        pass
        return .map (← blockMembers fuel [])
      else if mayBeEmpty then return .scalar tag .plain ""
      else failure
    | some .dash =>
      if behindKey then return .list (← bareItems fuel [])
      else if mayBeEmpty then return .scalar tag .plain ""
      else failure
    | _ => if mayBeEmpty then return .scalar tag .plain "" else failure

/-- A node, or nothing before one of the tokens. -/
def nodeBefore (fuel : Nat) (inBlock behindKey : Bool) (ends : List Token) : Parse Node :=
  match fuel with
  | 0 => failure
  | fuel + 1 => do
    match ← peek with
    | some t => if ends.contains t then return .empty else node fuel inBlock behindKey
    | none => failure

/-- The items of a block list up to its end. -/
def blockItems (fuel : Nat) (taken : List Node) : Parse (List Node) :=
  match fuel with
  | 0 => failure
  | fuel + 1 => do
    if ← passIf .dash then
      let n ← nodeBefore fuel true false [.dash, .blockEnd]
      blockItems fuel (n :: taken)
    else if ← passIf .blockEnd then return taken.reverse
    else failure

/-- The items of a list that stands at the column of its key. -/
def bareItems (fuel : Nat) (taken : List Node) : Parse (List Node) :=
  match fuel with
  | 0 => failure
  | fuel + 1 => do
    if ← passIf .dash then
      let n ← nodeBefore fuel true false [.dash, .key, .value, .blockEnd]
      bareItems fuel (n :: taken)
    else return taken.reverse

/-- The members of a block map up to its end. -/
def blockMembers (fuel : Nat) (taken : List (Node × Node)) : Parse (List (Node × Node)) :=
  match fuel with
  | 0 => failure
  | fuel + 1 => do
    if ← passIf .key then
      let k ← nodeBefore fuel true true [.key, .value, .blockEnd]
      if ← passIf .value then
        let v ← nodeBefore fuel true true [.key, .value, .blockEnd]
        blockMembers fuel ((k, v) :: taken)
      else blockMembers fuel ((k, .empty) :: taken)
    else if ← passIf .blockEnd then return taken.reverse
    else failure

/-- The items of a flow list up to its bracket. A key with its value is a map
of one member. -/
def flowItems (fuel : Nat) (taken : List Node) (isFirst : Bool) : Parse (List Node) :=
  match fuel with
  | 0 => failure
  | fuel + 1 => do
    if ← passIf .closeBracket then return taken.reverse
    else
      if !isFirst then passComma
      if ← passIf .key then
        let member ← flowPair fuel
        flowItems fuel (.map [member] :: taken) false
      else if ← passIf .closeBracket then return taken.reverse
      else
        let n ← node fuel false false
        flowItems fuel (n :: taken) false

/-- The member of a map in a flow list. A key that is missing takes the next
token with it. -/
def flowPair (fuel : Nat) : Parse (Node × Node) :=
  match fuel with
  | 0 => failure
  | fuel + 1 => do
    let ends : List Token := [.value, .comma, .closeBracket]
    let k ←
      if (← peek).any ends.contains then do
        pass
        pure Node.empty
      else node fuel false false
    if ← passIf .value then
      return (k, ← nodeBefore fuel false false [.comma, .closeBracket])
    else return (k, .empty)

/-- The members of a flow map up to its brace. A key alone has an empty value. -/
def flowMembers (fuel : Nat) (taken : List (Node × Node)) (isFirst : Bool) :
    Parse (List (Node × Node)) :=
  match fuel with
  | 0 => failure
  | fuel + 1 => do
    if ← passIf .closeBrace then return taken.reverse
    else
      if !isFirst then passComma
      if ← passIf .key then
        let k ← nodeBefore fuel false false [.value, .comma, .closeBrace]
        if ← passIf .value then
          let v ← nodeBefore fuel false false [.comma, .closeBrace]
          flowMembers fuel ((k, v) :: taken) false
        else flowMembers fuel ((k, .empty) :: taken) false
      else if ← passIf .closeBrace then return taken.reverse
      else
        let k ← node fuel false false
        flowMembers fuel ((k, .empty) :: taken) false

end

/-- The directives before a document. There is one version, which has to be
1.1 or 1.2, and a handle is declared once. -/
def directives (fuel : Nat) (hasVersion : Bool) : Parse Unit :=
  match fuel with
  | 0 => failure
  | fuel + 1 => do
    match ← peek with
    | some (.directive (.version major minor)) =>
      if hasVersion || major != 1 || (minor != 1 && minor != 2) then failure
      pass
      directives fuel true
    | some (.directive (.handle name start)) =>
      if (← get).handles.any (·.1 == name) then failure
      pass
      modify fun r => { r with handles := (name, start) :: r.handles }
      directives fuel hasVersion
    | _ => return ()

/-- Handles that need no declaration. -/
def knownHandles : List (String × String) := [("!", "!"), ("!!", "tag:yaml.org,2002:")]

/-- The root of the one document of a text. Without its mark, a document has
to hold something. A text without tokens is an empty scalar. -/
def document (fuel : Nat) : Parse Node := do
  match ← peek with
  | none => return .empty
  | some (.directive _) | some .documentStart =>
    directives fuel false
    modify fun r => { r with handles := r.handles ++ knownHandles }
    if !(← passIf .documentStart) then failure
    match ← peek with
    | none | some (.directive _) | some .documentStart | some .documentEnd => return .empty
    | _ => node fuel true false
  | _ =>
    modify fun r => { r with handles := knownHandles }
    node fuel true false

/-- Passes over the marks at the end of a document. -/
def passEnds : Nat → Parse Unit
  | 0 => return ()
  | fuel + 1 => do if ← passIf .documentEnd then passEnds fuel

end Parse

/-- A node with those that its references lead to. -/
structure Tree where
  root : Node
  /-- The named nodes by their numbers. The first one for a number counts. -/
  named : List (Nat × Node)

/-- The tree of the tokens of a text with one document. -/
def Tree.ofTokens? (tokens : List Token) : Option Tree := do
  let fuel := 4 * tokens.length + 8
  let (root, r) ← (do
    let root ← Parse.document fuel
    Parse.passEnds fuel
    return root : Parse Node).run { tokens := tokens }
  if !r.tokens.isEmpty then none
  else
    let named := r.holders.filterMap fun (number, started) => do
      return (number, ← r.named.lookup started)
    return ⟨root, named⟩

end Yaml

end TypedTables

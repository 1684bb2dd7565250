import TypedTables.Document.Yaml.Node
/-!
# TypedTables — reading YAML

A YAML text becomes tokens, then a tree of nodes, then a document. A scalar
without quotes becomes `Document.plain`, one with a tag `Document.tagged`.
The tags of lists and maps say nothing. A reference stands for what its name
was given to; where that contains the reference itself, nothing can be read
at it.
-/

namespace TypedTables

namespace Yaml

/-- The text of a key, whatever its quotes and its tag. -/
def keyText? : Document → Option String
  | .plain s | .text s | .tagged _ _ s => some s
  | _ => none

mutual

/-- What a node stands for. `referred` says what the references stand for. -/
def Node.toDocument (referred : Nat → Document) : Node → Document
  | .scalar (some tag) style s => .tagged tag style s
  | .scalar none .plain s => .plain s
  | .scalar none _ s => .text s
  | .list items => .list (documentsOf referred items)
  | .map members =>
    match membersOf? referred members with
    | some members => .map members
    | none => .unreadable
  | .reference number => referred number

def documentsOf (referred : Nat → Document) : List Node → List Document
  | [] => []
  | n :: ns => n.toDocument referred :: documentsOf referred ns

def membersOf? (referred : Nat → Document) : List (Node × Node) → Option (List (String × Document))
  | [] => some []
  | (k, v) :: rest => do
    let key ← keyText? (k.toDocument referred)
    return (key, v.toDocument referred) :: (← membersOf? referred rest)

end

namespace Tree

/-- What the numbers of references stand for, if references are followed so
many times within one node. -/
def referred (t : Tree) : Nat → List (Nat × Document)
  | 0 => []
  | depth + 1 =>
    let inner := t.referred depth
    t.named.map fun (number, n) => (number, n.toDocument fun i => (inner.lookup i).getD .unreadable)

/-- What the root stands for. A reference that does not contain itself is
followed no more often than there are nodes to refer to. -/
def toDocument (t : Tree) : Document :=
  let referred := t.referred (t.named.length + 8)
  t.root.toDocument fun i => (referred.lookup i).getD .unreadable

end Tree

/-- Reads a whole text as one document. -/
def parse? (text : String) : Option Document := do
  return (← Tree.ofTokens? (← Token.ofText? text)).toDocument

end Yaml

end TypedTables

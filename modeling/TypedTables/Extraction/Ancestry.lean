/-!
# TypedTables — ancestries

Providers and models extend others by name. `Ancestry.of` follows the names
from one of them up until there is no further parent, a parent is unknown,
or one that was passed already comes up again. Every step passes one more
name, so as many steps as there are names settle the matter.
-/

namespace TypedTables

/-- Where a chain of parents leads. -/
inductive Ancestry (α : Type)
  /-- The chain ends: from the start to the last ancestor. -/
  | complete (chain : List α)
  /-- The last one of the chain names a parent that is unknown. -/
  | broken (last : α) (parent : String)
  /-- The chain comes back to itself. -/
  | cyclic
deriving Repr

namespace Ancestry

variable {α : Type}

/-- How a declaration is found, and whom it extends. -/
structure Kinship (α : Type) where
  find? : String → Option α
  name : α → String
  parent? : α → Option String

/-- The ancestry above a chain, whose members are given last one first. -/
def above (k : Kinship α) (names : List String) (chain : List α) (last : α) : Nat → Ancestry α
  | 0 => .cyclic
  | fuel + 1 =>
    match k.parent? last with
    | none => .complete (last :: chain).reverse
    | some parent =>
      match k.find? parent with
      | none => .broken last parent
      | some next =>
        if names.contains (k.name next) then .cyclic
        else above k (k.name next :: names) (last :: chain) next fuel

/-- The ancestry of a declaration among at most so many. -/
def of (k : Kinship α) (size : Nat) (start : α) : Ancestry α :=
  above k [k.name start] [] start (size + 1)

end Ancestry

end TypedTables

import TypedTables.Database.Site
/-!
# TypedTables — conditions

The conditions that the joined rows of a query have to meet: those of the
query, those of its joins, and those on its groups that speak of nothing but
what the rows are grouped by. An optional table whose rows a condition
requires is joined like any other. Where a condition gives the value of a
column, the column counts as known in all others.
-/

namespace TypedTables

namespace Term

variable {κ : Type}

/-- The columns in a term. -/
def references : Term κ → List κ
  | literal _ | argument _ | rowCount => []
  | column c => [c]
  | asText a | not a | short a => a.references
  | compare _ a b | same a b | like a b | and a b | or a b => a.references ++ b.references

/-- The conditions that all have to be met. -/
def conjuncts : Term κ → List (Term κ)
  | and a b => a.conjuncts ++ b.conjuncts
  | t => [t]

/-- The same, and whether each stands on the right of an `AND`. -/
def conjunctsOn (isRight : Bool) : Term κ → List (Term κ × Bool)
  | and a b => a.conjunctsOn false ++ b.conjunctsOn true
  | t => [(t, isRight)]

/-- The conditions of which one has to be met. -/
def disjuncts : Term κ → List (Term κ)
  | or a b => a.disjuncts ++ b.disjuncts
  | t => [t]

/-- Whether a term is the same for all rows. -/
def isConstant : Term κ → Bool
  | literal _ | argument _ => true
  | _ => false

/-- Whether a term shows by its form that it is neither true nor false where
some columns are all empty, or else that one of its sides is not. -/
def requires (isMeant : κ → Bool) : Term κ → Bool
  | column c => isMeant c
  | literal _ | argument _ | rowCount | same _ _ | like _ _ => false
  | asText a | not a => a.requires isMeant
  | compare _ a b => a.requires isMeant || b.requires isMeant
  | and a b | or a b => a.requires isMeant && b.requires isMeant
  | short (or (compare _ a _) _) => a.requires isMeant
  | short (and (compare _ a low) (compare _ _ high)) =>
    a.requires isMeant || (low.requires isMeant && high.requires isMeant)
  | short _ => false

/-- Whether a term speaks of nothing but some keys. -/
def isOver [DecidableEq κ] (keys : List (Term κ)) (t : Term κ) : Bool :=
  keys.contains t ||
    match t with
    | literal _ | argument _ => true
    | column _ | rowCount => false
    | asText a | not a | short a => a.isOver keys
    | compare _ a b | same a b | like a b | and a b | or a b => a.isOver keys && b.isOver keys

end Term

/-- A condition that joined rows have to meet. -/
structure Condition where
  term : PlacedTerm
  /-- The table that it joins, if rows stay even where it is not met. -/
  joins : Option Nat := none
  /-- Whether it stands on the right of an `AND`. -/
  isRight : Bool := false
  /-- The columns for which other conditions give the value. -/
  given : List Site := []

namespace Condition

/-- The conditions that some terms are made of, the first of them on the left
of the others. With each comes the table that it joins, if rows stay even
where it is not met. -/
def ofTerms (terms : List (PlacedTerm × Option Nat)) : List Condition :=
  (terms.mapIdx fun i (term, joins) =>
    (term.conjunctsOn (i ≠ 0)).map fun (part, isRight) => { term := part, joins, isRight }).flatten

/-- Whether the condition shows that it is not met where some columns are all
empty. That one of them is not empty only shows it on the left of an `AND`,
or by itself. -/
def requires (isMeant : ColumnPlace → Bool) (c : Condition) : Bool :=
  c.joins.isNone &&
    match c.term with
    | .short (.not (.same a _)) => !c.isRight && a.requires isMeant
    | t => t.requires isMeant

/-- Joins a table like any other if conditions require its rows. -/
def requireTable (tables : List PlacedTable) (conditions : List Condition) (k : Nat) :
    List PlacedTable × List Condition :=
  let isMeant (place : ColumnPlace) : Bool := (Site.ofPlace tables place.index).table = k
  if (tables[k]?).any (·.isOptional) && conditions.any (requires isMeant) then
    (tables.modify k ({ · with kind := .inner }),
      conditions.map fun c => if c.joins = some k then { c with joins := none } else c)
  else (tables, conditions)

/-- The column for which a condition gives the value. -/
def givenSite? (tables : List PlacedTable) (c : Condition) : Option Site :=
  match c.joins, c.term with
  | none, .compare .equal (.column place) t | none, .compare .equal t (.column place) =>
    if t.isConstant then some (Site.ofPlace tables place.index) else none
  | _, _ => none

/-- The columns for which each of the conditions gives the value, unless one
before it does. -/
def givenSites (tables : List PlacedTable) : List Site → List Condition → List (Option Site)
  | _, [] => []
  | before, c :: rest =>
    let site := (c.givenSite? tables).filter (!before.contains ·)
    site :: givenSites tables (before ++ site.toList) rest

/-- Tells each condition what the others give. -/
def share (tables : List PlacedTable) (conditions : List Condition) : List Condition :=
  let sites := givenSites tables [] conditions
  conditions.mapIdx fun i c =>
    if c.joins.isSome then c
    else { c with given := ((sites.zipIdx.filter fun (_, j) => j ≠ i).filterMap (·.1)) }

/-- The tables of a query and the conditions on its joined rows. -/
def settle (tables : List PlacedTable) (conditions : List Condition) :
    List PlacedTable × List Condition :=
  let (tables, conditions) := (List.range tables.length).foldl
    (fun found k => requireTable found.1 found.2 k) (tables, conditions)
  (tables, share tables conditions)

/-- The parts of a condition on groups that are conditions on their rows. -/
def ofGroups (keys : List PlacedTerm) (having : PlacedTerm) : List Condition :=
  (having.conjuncts.filter (·.isOver keys)).map fun term => { term }

end Condition

end TypedTables

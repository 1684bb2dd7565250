import TypedTables.Database.Condition
/-!
# TypedTables — criteria

What the conditions of a query say about single columns. A condition is
read for the columns that it compares with something that can be known
before a row of their table is found: a comparison bounds the column on
either side, a range bounds it twice, and alternatives that all ask for the
same column are one choice among several values.
-/

namespace TypedTables

/-- How a condition bounds a column. -/
inductive Bound
  | equal
  /-- It is one of some values. -/
  | among (size : Nat)
  | empty
  | filled
  | above
  | below
deriving Repr, DecidableEq

namespace Bound

/-- The bound that a comparison is to its left side. -/
def ofRelation? : Relation → Option Bound
  | .equal => some .equal
  | .notEqual => none
  | .less | .lessOrEqual => some .below
  | .greater | .greaterOrEqual => some .above

/-- The bound that a comparison is to its right side. -/
def flip : Bound → Bound
  | .above => .below
  | .below => .above
  | b => b

/-- Whether it leaves a choice among some values of the column. -/
def isChoice : Bound → Bool
  | .among _ => true
  | .equal | .empty | .filled | .above | .below => false

/-- Whether it leaves single values of the column. -/
def isPoint : Bound → Bool
  | .equal | .among _ | .empty => true
  | .filled | .above | .below => false

end Bound

/-- A condition as it speaks of one column, if it bounds one. -/
structure Criterion where
  /-- Its position among all criteria. -/
  position : List Nat
  condition : Condition
  /-- The condition that it was taken out of. -/
  origin : Option (List Nat) := none
  column : Option Site := none
  bound : Option Bound := none
  /-- The column that it is compared with. -/
  other : Option Site := none
  /-- Whether the two columns can stand for each other. -/
  isEquation : Bool := false
  /-- The affinity under which it is compared. -/
  affinity : Option ColumnAffinity := none
  /-- The tables that the bound depends on. -/
  needs : List Nat := []
  /-- All tables that the condition depends on. -/
  tables : List Nat := []

namespace Criterion

/-- The affinity under which two sides are compared. Two columns of which
none prefers numbers are compared as they are. -/
def sharedAffinity (a b : Option ColumnAffinity) : Option ColumnAffinity :=
  match a, b with
  | some x, some y => if x.isNumeric || y.isNumeric then some .numeric else none
  | some x, none | none, some x => some x
  | none, none => none

/-- Whether values compared under one affinity are found in an index over a
column of another. -/
def fits (compared : Option ColumnAffinity) (column : ColumnAffinity) : Bool :=
  match compared with
  | none | some .blob => true
  | some .text => column = .text
  | some _ => column.isNumeric

/-- An alternative of a condition, as it bounds a table. -/
structure Arm where
  terms : List PlacedTerm
  criteria : List Criterion

/-- What is known while conditions are read: the tables of the query, and
those whose rows are found before the search begins. -/
structure Reading where
  tables : List PlacedTable
  settled : List Nat := []

namespace Reading

/-- The column that a term is. -/
def site? (r : Reading) : PlacedTerm → Option Site
  | .column place => some (Site.ofPlace r.tables place.index)
  | _ => none

/-- Whether a term is only about a value that is never empty. -/
def isSettledEmptiness (r : Reading) : PlacedTerm → Bool
  | .same a (.literal .null) | .short (.not (.same a (.literal .null))) =>
    (r.site? a).any fun s => !s.canBeEmpty r.tables
  | _ => false

/-- The columns that the value of a term depends on. -/
def columnsOf (r : Reading) (t : PlacedTerm) : List Site :=
  if r.isSettledEmptiness t then []
  else
    match t with
    | .literal _ | .argument _ | .rowCount => []
    | .column place => [Site.ofPlace r.tables place.index]
    | .asText a | .not a | .short a => r.columnsOf a
    | .compare _ a b | .same a b | .like a b | .and a b | .or a b => r.columnsOf a ++ r.columnsOf b

/-- The tables that a term of a condition depends on. -/
def tablesOf (r : Reading) (c : Condition) (t : PlacedTerm) : List Nat :=
  (((r.columnsOf t).filter (!c.given.contains ·)).map (·.table)).eraseDups.filter (!r.settled.contains ·)

/-- A condition that bounds nothing yet. -/
def plain (r : Reading) (position : List Nat) (c : Condition) : Criterion :=
  { position, condition := c, tables := (r.tablesOf c c.term ++ c.joins.toList).eraseDups }

/-- The tables that have to be visited first, whatever the bound: for a
condition that joins a table, all those before it. -/
def earlier (r : Reading) (c : Condition) : List Nat :=
  ((c.joins.map List.range).getD []).filter (!r.settled.contains ·)

/-- A comparison as it bounds its left side, and as it bounds its right one. -/
def compared (r : Reading) (base : Criterion) (bound : Bound) (a b : PlacedTerm) : List Criterion :=
  let c := base.condition
  let isKnown (s : Site) : Bool := c.given.contains s
  let (left, right) := (r.site? a, (r.site? b).filter (!isKnown ·))
  let (leftTables, rightTables) := (r.tablesOf c a, r.tablesOf c b)
  let bound? (x : Bound) : Option Bound := if leftTables.any rightTables.contains then none else some x
  let alike : Bool :=
    match left, right with
    | some x, some y =>
      let (p, q) := (x.affinity r.tables, y.affinity r.tables)
      p = q || (p.isNumeric && q.isNumeric)
    | _, _ => false
  let base := { base with affinity := sharedAffinity a.affinity? b.affinity? }
  let ofLeft := left.map fun s =>
    { base with
      column := s, bound := bound? bound, other := right
      isEquation := bound = .equal && alike && c.joins.isNone
      needs := (rightTables ++ r.earlier c).eraseDups }
  let ofRight := right.map fun s =>
    { base with
      column := s, bound := bound? bound.flip, other := left.filter (!isKnown ·)
      isEquation := bound = .equal && alike && c.joins.isNone
      needs := (leftTables ++ r.earlier c).eraseDups }
  match ofLeft, ofRight with
  | some x, some y => [x, { y with position := base.position ++ [0], origin := some base.position }]
  | some x, none | none, some x => [x]
  | none, none => [base]

/-- The criteria of a condition without alternatives: what it says of its
column, or else what can be taken out of it. -/
def criteria (r : Reading) (position : List Nat) (c : Condition) : List Criterion :=
  let base := r.plain position c
  if r.isSettledEmptiness c.term then [base]
  else
    let part (k : Nat) : Criterion := { base with position := position ++ [k], origin := some position }
    match c.term with
    | .compare relation a b =>
      match Bound.ofRelation? relation with
      | some bound => r.compared base bound a b
      | none => [base]
    | .same a (.literal .null) =>
      [{ base with column := r.site? a, bound := some .empty, needs := r.earlier c }]
    | .same a b => r.compared base .equal a b
    | .short (.and (.compare _ a low) (.compare _ b high)) =>
      base :: (r.compared (part 1) .above a low ++ r.compared (part 2) .below b high)
    | .short (.not (.same a (.literal .null))) =>
      match r.site? a, c.joins with
      | some s, none =>
        if s.column.isSome then [base, { part 1 with column := some s, bound := some .filled }]
        else [base]
      | _, _ => [base]
    | .short t =>
      match t.disjuncts with
      | .compare _ a b :: more =>
        let items := b :: more.flatMap fun
          | .compare _ _ x => [x]
          | _ => []
        let itemTables := (items.flatMap (r.tablesOf c)).eraseDups
        let bound := if (r.tablesOf c a).any itemTables.contains then none else some (.among items.length)
        [{ base with
            column := r.site? a, bound, affinity := a.affinity?
            needs := (itemTables ++ r.earlier c).eraseDups }]
      | _ => [base]
    | _ => [base]

/-- The alternatives of a condition, each as the conditions that it is made
of. -/
def alternatives (c : Condition) : List (List Condition) :=
  c.term.disjuncts.map fun t => t.conjuncts.map fun term => { c with term }

/-- Whether the condition has alternatives. -/
def hasAlternatives (c : Condition) : Bool := 1 < c.term.disjuncts.length

/-- The criteria of one alternative, which stand below the condition. -/
def ofAlternative (r : Reading) (position : List Nat) (conditions : List Condition) : List Criterion :=
  (conditions.mapIdx fun i c => r.criteria (position ++ [i]) c).flatten

/-- The tables that every alternative of a condition bounds. -/
def boundTables (r : Reading) (c : Condition) : List Nat :=
  let tables := (alternatives c).map fun conditions =>
    ((r.ofAlternative [] conditions).filter (·.bound.isSome)).filterMap fun x => x.column.map (·.table)
  match tables with
  | [] => []
  | first :: rest => first.eraseDups.filter fun t => rest.all (·.contains t)

/-- The values of a column, if every alternative asks for one of it. -/
def choices? (r : Reading) (c : Condition) (s : Site) : Option (List Criterion) :=
  (alternatives c).mapM fun
    | [x] => (r.criteria [] x).find? fun y =>
      y.column == some s && y.bound == some .equal &&
        (y.other.isNone || y.other.any fun o => o.affinity r.tables = s.affinity r.tables)
    | _ => none

/-- A condition with alternatives, and what they are together. -/
def withChoice (r : Reading) (position : List Nat) (c : Condition) : List Criterion :=
  let base := r.plain position c
  let sites := ((alternatives c).head?.map (r.ofAlternative [])).getD [] |>.filterMap (·.column)
  let choice? (s : Site) : Option Criterion := do
    let choices ← r.choices? c s
    return { base with
      position := position ++ [0], origin := some position
      column := s, bound := some (.among choices.length), affinity := some (s.affinity r.tables)
      needs := (choices.flatMap (·.needs)).eraseDups }
  base :: (sites.findSome? choice?).toList

/-- All criteria of some conditions: the conditions themselves, and then what
is taken out of them, from the last to the first. -/
def all (r : Reading) (position : List Nat) (conditions : List Condition) : List Criterion :=
  let each := conditions.mapIdx fun i c =>
    if hasAlternatives c then r.withChoice (position ++ [i]) c else r.criteria (position ++ [i]) c
  each.flatMap (·.take 1) ++ each.reverse.flatMap (·.drop 1)

/-- A condition as it bounds its right side, or as the range that it is. -/
def turned : PlacedTerm → Option PlacedTerm
  | .compare relation a b => some (.compare relation.flip b a)
  | .short (.not (.same a b)) => some (.compare .greater a b)
  | _ => none

/-- One alternative of a condition as far as it bounds a table, and then as
it does so when it is turned. -/
def armOf (r : Reading) (position : List Nat) (k : Nat) (conditions : List Condition) : List Arm × List Arm :=
  let isMeant (x : Criterion) : Bool := x.column.any (·.table = k)
  let whole : Arm := ⟨conditions.map (·.term), r.all position conditions⟩
  match conditions with
  | [c] =>
    match r.criteria position c with
    | [] => ([], [])
    | main :: more =>
      let others := match turned c.term with
        | some t => (more.filter isMeant).map fun x => ⟨[t], [x]⟩
        | none => []
      if main.bound.isNone then ([whole], others)
      else (if isMeant main then [⟨[c.term], [main]⟩] else [], others)
  | _ => ([whole], [])

/-- The ways in which the alternatives of a condition bound a table, one
after the other. -/
def arms (r : Reading) (position : List Nat) (k : Nat) (c : Condition) : List Arm :=
  let each := (alternatives c).mapIdx fun i conditions => r.armOf (position ++ [i]) k conditions
  each.flatMap (·.1) ++ each.reverse.flatMap (·.2)

end Reading

/-- Whether it is a condition itself, and not taken out of one. -/
def isWhole (c : Criterion) : Bool := c.origin.isNone

/-- Whether one criterion uses up a condition. -/
def covers (c whole : Criterion) : Bool :=
  c.position = whole.position || c.origin = some whole.position

/-- By how much it narrows down rows, at a guess, where it asks for a value:
by less if that is one of the commonest numbers. -/
def narrowing (c : Criterion) : Estimate :=
  if c.bound ≠ some .equal then 0
  else
    let isCommon (t : PlacedTerm) : Bool :=
      match t with
      | .literal (.integer n) => -1 ≤ n.toInt && n.toInt ≤ 1
      | _ => false
    match c.condition.term with
    | .compare _ (.column _) b => if isCommon b then 10 else 20
    | .compare _ a _ => if isCommon a then 10 else 20
    | _ => 20

end Criterion

end TypedTables

import TypedTables.Database.Access
import TypedTables.Sql.Ordering
/-!
# TypedTables — routes through the tables of a query

A route visits the tables of a query one inside the other, each in one of
the ways to its rows. Some routes deliver the rows in the order in which a
query wants them, or in the first part of it, and save the cost of sorting;
the cheapest route is taken, of several the one that is found first.
-/

namespace TypedTables

/-- One of the keys that rows are wanted in the order of. -/
structure WantedKey where
  term : PlacedTerm
  collation : Collation := .none
  descending : Bool := false
deriving Repr, DecidableEq

/-- The order in which the rows of a query are wanted. -/
structure Wanted where
  keys : List WantedKey := []
  /-- Whether it is enough that rows with the same keys come together. -/
  isGrouping : Bool := false
  /-- Whether it is enough that the rows of each choice among values, by which
  a table is searched, are in order. -/
  isPerChoice : Bool := false
  /-- Whether the groups are wanted in the order of the keys as well. -/
  isOrdering : Bool := false
  /-- How many rows are wanted, if that is limited. -/
  limit : Option Estimate := none
  /-- How many columns the answer has. -/
  width : Nat := 1

/-- What a route has delivered of the wanted order. -/
structure Delivery where
  /-- The keys that the rows are in the order of. -/
  met : List Nat := []
  /-- Whether no two rows so far have the same keys. -/
  isDistinct : Bool := true
  /-- The tables whose rows the keys tell apart. -/
  told : List Nat := []
  /-- The tables that are visited from the last row to the first. -/
  reversed : List Nat := []

/-- What one table has delivered, column by column of the key that it is
visited by. -/
structure Walk where
  met : List Nat
  isDistinct : Bool
  /-- Whether the rows are visited from the last to the first, once it is
  decided. -/
  direction : Option Bool := none

namespace Wanted

/-- Whether an order of columns is an order of a key. -/
def isKey (w : Wanted) (r : Criterion.Reading) (s : Site) (i : Nat) : Bool :=
  (w.keys[i]?).any fun key =>
    r.site? key.term == some s &&
      (s.column.isNone || key.collation = .none || key.collation = .binary)

/-- The keys that are still to be met. -/
def unmet (w : Wanted) (met : List Nat) : List Nat := (List.range w.keys.length).filter (!met.contains ·)

/-- The key that the rows are in the order of next, if the order of a column
is that of one. Groups can come in the order of any of their keys. -/
def next? (w : Wanted) (r : Criterion.Reading) (met : List Nat) (s : Site) : Option Nat :=
  let candidates := w.unmet met
  (if w.isGrouping then candidates else candidates.take 1).find? (w.isKey r s)

/-- Goes along the columns of a key. Columns that are searched for have one
value; the others have to be in the order of wanted keys. -/
def walk (w : Wanted) (s : Search) (a : Access) (length : Nat) : List (Nat × Option Nat) → Walk → Walk
  | [], state => state
  | (j, column) :: rest, state =>
    let bound := ((a.used[j]?).filter fun _ => j < a.points).bind (·.bound)
    if bound == some .equal || (w.isPerChoice && bound.any (·.isChoice)) then w.walk s a length rest state
    else if bound == some .empty then w.walk s a length rest { state with isDistinct := false }
    else
      let canBeEmpty := (s.table? a.table).any (·.canBeEmpty column)
      let state := if a.points ≤ j && canBeEmpty then { state with isDistinct := false } else state
      let found := w.next? s.reading state.met ⟨a.table, column⟩
      let descending := (found.bind (w.keys[·]?)).any (·.descending)
      let agrees := w.isGrouping || state.direction.all (· == descending)
      match found.filter fun _ => agrees with
      | some i =>
        let direction := if w.isGrouping then state.direction else some descending
        let more := w.walk s a length rest { state with met := state.met ++ [i], direction }
        if column.isNone then { more with isDistinct := true } else more
      | none => if j = 0 || j < length then { state with isDistinct := false } else state

/-- The keys whose value a condition gives, once some tables are visited. -/
def given (w : Wanted) (s : Search) (ready : List Nat) (a : Access) (met : List Nat) : List Nat :=
  let isUsed (c : Criterion) : Bool := a.used.any fun d => d.position = c.position
  let isPoint (b : Bound) : Bool := b == .equal || b == .empty || (w.isPerChoice && b.isChoice)
  (w.unmet met).filter fun i =>
    (w.keys[i]?).any fun key =>
      match s.reading.site? key.term with
      | none => false
      | some site =>
        site.table = a.table &&
          let points := (s.bounds site).filter fun c => c.bound.any isPoint && Access.isWithin c.needs ready
          match (points.find? fun c => c.needs.isEmpty && c.bound == some .equal).or points.head? with
          | some c =>
            if c.bound.any (·.isChoice) then isUsed c
            else c.bound == some .empty || site.column.isNone || key.collation = .none ||
              key.collation = .binary
          | none => false

/-- The keys that single rows of some tables decide. -/
def decided (w : Wanted) (s : Search) (told met : List Nat) : List Nat :=
  (w.unmet met).filter fun i =>
    (w.keys[i]?).any fun key =>
      let tables := s.reading.tablesOf { term := key.term } key.term
      (!tables.isEmpty || key.term.isConstant) && Access.isWithin tables told

/-- What a route delivers when it visits one more table. Nothing is known of
the order of an index that is built, or of alternatives. -/
def deliver (w : Wanted) (s : Search) (ready : List Nat) (a : Access) (d : Delivery) : Option Delivery := do
  let met := d.met ++ w.given s ready a d.met
  let columnAt (i : Nat) : Option Nat := ((s.table? a.table).map (·.columnAt i)).getD (some i)
  let walked : Walk ←
    if a.isSingle then some ⟨met, true, none⟩
    else
      match a.way with
      | .scan | .number => some (w.walk s a 0 [(0, none)] ⟨met, true, none⟩)
      | .index i =>
        let columns := (i.columns.map columnAt ++ [none]).mapIdx fun j c => (j, c)
        some (w.walk s a i.columns.length columns ⟨met, i.isUnique, none⟩)
      | .built | .alternatives _ => none
  let reversed := if walked.direction == some true then d.reversed ++ [a.table] else d.reversed
  if walked.isDistinct then
    let told := d.told ++ [a.table]
    return ⟨walked.met ++ w.decided s told walked.met, true, told, reversed⟩
  else return ⟨walked.met, false, d.told, reversed⟩

/-- What a route delivers, as far as its rows can be told apart. -/
def delivery (w : Wanted) (s : Search) : List Nat → List Access → Delivery → Option Delivery
  | _, [], d => some d
  | ready, a :: rest, d =>
    if !d.isDistinct || (w.unmet d.met).isEmpty then some d
    else (w.deliver s ready a d).bind (w.delivery s (ready ++ [a.table]) rest)

/-- How many of the keys a route delivers, if that is decided yet, and the
tables that it visits from the last row to the first. -/
def order (w : Wanted) (s : Search) (steps : List Access) : Option Nat × List Nat :=
  match w.delivery s [] steps {} with
  | none => (some 0, [])
  | some d =>
    let count := ((List.range w.keys.length).takeWhile d.met.contains).length
    if count = w.keys.length || !d.isDistinct then (some count, d.reversed) else (none, d.reversed)

/-- The cost of sorting rows of which some keys are in order already. -/
def sortingCost (w : Wanted) (rows : Estimate) (met : Nat) : Estimate :=
  let columns := Estimate.ofNat ((w.width + 59) / 30)
  let part : Estimate :=
    if met = 0 then 0 else .ofNat ((w.keys.length - met) * 100 / w.keys.length) - 66
  match w.limit with
  | some limit =>
    rows + columns + part + 10 + (if met = 0 then 0 else 6) + Estimate.steps (min limit rows)
  | none => rows + columns + part + Estimate.steps rows

end Wanted

/-- A way through some of the tables of a query. -/
structure Route where
  steps : List Access := []
  rows : Estimate := 0
  cost : Estimate := 0
  /-- The cost without that of sorting. -/
  unsorted : Estimate := 0
  /-- How many wanted keys it delivers, if that is decided yet. -/
  order : Option Nat
  reversed : List Nat := []

namespace Route

/-- The tables that a route visits, in this order. -/
def tables (r : Route) : List Nat := r.steps.map (·.table)

/-- The route with one more table, if its way can be taken. An index is not
built for a single visit. -/
def extend? (s : Search) (w : Wanted) (rows : Estimate) (r : Route) (a : Access) : Option Route :=
  if !Access.isWithin a.needs r.tables || r.tables.contains a.table ||
    (a.way.isBuilt && r.rows < 3) then none
  else
    let visits := a.cost + r.rows
    let unsorted := Estimate.sum ((a.setup.map (Estimate.sum · visits)).getD visits) r.unsorted
    let steps := r.steps ++ [a]
    let (order, reversed) := if r.order.isSome then (r.order, r.reversed) else w.order s steps
    let isSorted := order.all (· = w.keys.length)
    some {
      steps, rows := r.rows + a.rows, order, reversed
      cost := if isSorted then unsorted
        else Estimate.sum unsorted (w.sortingCost rows (order.getD 0)) + 3
      unsorted := if isSorted then unsorted - 2 else unsorted }

/-- Whether an index of smaller entries is taken. -/
def isLeaner (s : Search) (a b : Access) : Bool :=
  match a.way, b.way, s.table? a.table, s.table? b.table with
  | .index i, .index j, some t, some u => t.entrySize i < u.entrySize j
  | _, _, _, _ => false

/-- Whether a route is better than another one through the same tables. -/
def isBetter (s : Search) (a b : Route) : Bool :=
  let order := (compare a.cost b.cost).then ((compare a.rows b.rows).then (compare a.unsorted b.unsorted))
  order == .lt ||
    (order == .eq &&
      match a.steps.getLast?, b.steps.getLast? with
      | some x, some y => isLeaner s x y
      | _, _ => false)

/-- Whether two routes visit the same tables, and both can or both cannot be
said to deliver an order. -/
def isAlike (a b : Route) : Bool :=
  Access.isWithin a.tables b.tables && Access.isWithin b.tables a.tables &&
    a.order.isSome == b.order.isSome

/-- The routes with a new one: of two alike, the better one. -/
def keep (s : Search) (routes : List Route) (new : Route) : List Route :=
  match routes.findIdx? (isAlike new) with
  | none => routes ++ [new]
  | some i => routes.modify i fun old => if isBetter s new old then new else old

/-- The routes with one more table. -/
def longer (s : Search) (w : Wanted) (rows : Estimate) (ways : List Access) (routes : List Route) :
    List Route :=
  (routes.flatMap fun r => ways.filterMap (extend? s w rows r)).foldl (keep s) []

/-- The first of the cheapest routes. -/
def cheapest : List Route → Option Route
  | [] => none
  | r :: rest => some (rest.foldl (fun best x => if x.cost < best.cost then x else best) r)

/-- The best route through a number of tables, given the number of rows that
would be sorted. -/
def best (s : Search) (w : Wanted) (rows : Estimate) (count : Nat) (ways : List Access) : Option Route :=
  let start : Route := { order := if w.keys.isEmpty then some 0 else none }
  cheapest ((List.range count).foldl (fun routes _ => longer s w rows ways routes) [start])

/-- The ways that are left once a route without an order is known: a table
that it searches for single values is searched in any case. -/
def kept (ways : List Access) : List Access → List Access
  | [] => ways
  | a :: rest =>
    if !a.way.isBuilt && a.isSearch && a.searches (·.isPoint) then
      kept (ways.filter fun b => b.table ≠ a.table || b.isSearch || b.way.isBuilt) rest
    else ways

/-- Whether a route is a visit to one row at most. -/
def isSingle (r : Route) : Bool :=
  match r.steps with
  | [a] => a.isSingle
  | _ => false

/-- The tables that a route visits from the last row to the first: if it
delivers no key in order, its last table by itself still may. -/
def turned (s : Search) (w : Wanted) (r : Route) : List Nat :=
  if 0 < r.order.getD 0 then r.reversed
  else
    match r.steps.getLast? with
    | none => r.reversed
    | some a =>
      let w := { w with isGrouping := false, isPerChoice := true }
      let delivered :=
        if a.isSingle || (!a.way.isIndex && a.searches (·.isChoice)) then none
        else w.deliver s r.tables.dropLast a {}
      match delivered with
      | some d => if (w.unmet d.met).isEmpty then d.reversed else r.reversed
      | none => r.reversed

/-- The route that a query takes through some of its tables. One row at most
is in any order. -/
def ofSearch (s : Search) (w : Wanted) (tables : List (Nat × PlacedTable)) : Option Route := do
  let ways := tables.flatMap fun (k, t) => s.ways k t
  let first ← best s { w with keys := [] } 0 tables.length ways
  if w.keys.isEmpty || first.isSingle then return { first with order := some w.keys.length }
  let rows := if first.rows < 0 then 1 else first.rows + 1
  let route ← best s w rows tables.length (kept ways first.steps)
  if w.isGrouping && w.isOrdering && route.order = some w.keys.length then
    let (order, reversed) := { w with isGrouping := false }.order s route.steps
    return if order = some w.keys.length then { route with reversed } else route
  else return { route with reversed := turned s w route }

end Route

end TypedTables

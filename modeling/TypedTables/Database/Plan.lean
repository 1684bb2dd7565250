import TypedTables.Database.Route
/-!
# TypedTables — plans

A plan says in which order the joined rows of a query come if nothing sorts
them: the tables are visited one inside the other, and each in the order of
the index or of the row numbers by which its rows are found. It also says
which rows are looked up by their numbers. A real is a number of a row only
if it is the same integer, which the least of all integers never is.
-/

namespace TypedTables

/-- How the rows of a table come, one after the other. -/
inductive Visit
  /-- In the order of some cells, each perhaps the other way round. The terms
  are those by which the rows are looked up. -/
  | along (places : List (Nat × Bool)) (lookups : List PlacedTerm)
  /-- First those that meet the first alternative, then those of the second
  that have not come yet, and so on. -/
  | alternatives (visits : List (List PlacedTerm × Visit))

namespace Visit

/-- The values of which a term asks for one. -/
def choices : PlacedTerm → List PlacedTerm
  | .short t => t.disjuncts
  | t => t.disjuncts

/-- Whether a value is the number of a row when it is looked up. -/
def isNumber (v : Value) : Bool :=
  match Cell.toWhole v with
  | .integer _ => true
  | _ => false

/-- Whether looking up the number of a row finds it. Of several values that
are equal to it the last one is looked up. -/
def findsNumber (args cells : List Value) (lookup : PlacedTerm) : Except EngineFault Bool := do
  let values ← (choices lookup).mapM fun
    | .compare _ a b =>
      return Cell.alike (a.affinity?, ← a.eval args 1 cells) (b.affinity?, ← b.eval args 1 cells)
    | _ => return (.null, .null)
  let equal := values.filter fun (x, y) => Cell.same x y
  return equal.getLast?.any fun (x, y) => isNumber x && isNumber y

mutual

/-- Where a row comes in the order of a visit, if it is found. -/
def key? (args cells : List Value) : Visit → Except EngineFault (Option (List (Value × Bool)))
  | .along places lookups => do
    let found ← lookups.mapM (findsNumber args cells)
    return if found.all id then some (places.map fun (i, descending) => (cells.getD i .null, descending))
      else none
  | .alternatives visits => firstKey? args cells 0 visits

/-- The same among the alternatives from one on. -/
def firstKey? (args cells : List Value) (k : Nat) :
    List (List PlacedTerm × Visit) → Except EngineFault (Option (List (Value × Bool)))
  | [] => return none
  | (terms, visit) :: rest => do
    let isMet := (← terms.mapM (·.accepts args 1 cells)).all id
    let key ← if isMet then visit.key? args cells else pure none
    match key with
    | some key => return some ((.integer (Int64.ofNat k), false) :: key)
    | none => firstKey? args cells (k + 1) rest

end

end Visit

/-- How the rows of a query come before they are grouped and sorted. -/
structure Plan where
  /-- The visits to its tables, and whether their rows are optional. -/
  visits : List (Visit × Bool) := []
  /-- Whether the rows come in the wanted order, or the rows of each group
  together. -/
  isOrdered : Bool := false

/-- What a plan is made for: the tables of a query, and what it asks of their
rows. -/
structure Question where
  tables : List PlacedTable
  conditions : List Condition
  /-- The columns that are read. -/
  columns : List Site
  wanted : Wanted

namespace Question

/-- The search that the question is, once some tables are settled. -/
def search (q : Question) (settled : List Nat) (conditions : List Condition) (wanted : Wanted) : Search :=
  let reading : Criterion.Reading := ⟨q.tables, settled⟩
  { reading
    criteria := reading.all [] conditions
    columns := q.columns
    ordered := wanted.keys.filterMap fun key => reading.site? key.term }

/-- The columns of an index that is built to join a table: those that are
searched for, and the others that are read. -/
def builtColumns (s : Search) (visited : List Nat) (k : Nat) (t : PlacedTable) : List Nat :=
  let driving := (s.building k t).filter fun a => Access.isWithin a.needs visited
  let searched := (driving.flatMap (·.used)).filterMap fun c => c.column.bind (·.column)
  let read := (List.range t.table.columns.length).filter (s.columnsOf k).contains
  (searched ++ read).eraseDups

/-- The criteria that hold for the rows of every alternative of a condition. -/
def others (s : Search) (c : Condition) : List Condition :=
  let isMeant (x : Criterion) : Bool :=
    x.isWhole && (x.column.isSome || Criterion.Reading.hasAlternatives x.condition) &&
      x.condition.term != c.term
  (s.criteria.filter isMeant).map (·.condition)

/-- The visit that a way to the rows of a table is. The fuel bounds how deep
alternatives stand within alternatives. -/
def visit : (fuel : Nat) → Question → Search → List Nat → Bool → PlacedTable → Access → Visit
  | 0, _, _, _, _, _, _ => .along [] []
  | fuel + 1, q, s, visited, isReversed, t, a =>
    let along (columns : List (Option Nat)) (lookups : List PlacedTerm) : Visit :=
      .along (columns.map fun c => (t.cellOf c, isReversed)) lookups
    match a.way with
    | .scan => along [none] []
    | .number =>
      let points := a.used.filter fun c => c.bound.any (·.isPoint) && c.column == some ⟨a.table, none⟩
      along [none] (points.map (·.condition.term))
    | .index i => along (i.columns.map some ++ [none]) []
    | .built => along ((builtColumns s visited a.table t).map some ++ [none]) []
    | .alternatives c =>
      .alternatives ((s.reading.arms [] a.table c).map fun x =>
        let conditions := x.terms.map fun term => { c with term }
        let arm := q.search (s.reading.settled ++ visited) (conditions ++ others s c) {}
        match Route.ofSearch arm {} [(a.table, t)] with
        | some ⟨[b], _, _, _, _, _⟩ => (x.terms, visit fuel q arm visited false t b)
        | _ => (x.terms, along [none] []))

/-- The visits of a route, from the outermost table on. -/
def visits (q : Question) (s : Search) (reversed : List Nat) :
    List Nat → List Access → List (Visit × Bool)
  | _, [] => []
  | visited, a :: rest =>
    let here :=
      match q.tables[a.table]? with
      | some t => [(visit 3 q s visited (reversed.contains a.table) t a, t.isOptional)]
      | none => []
    here ++ q.visits s reversed (visited ++ [a.table]) rest

/-- The plan for a question. -/
def plan (q : Question) : Plan :=
  let s := q.search [] q.conditions q.wanted
  match Route.ofSearch s q.wanted (q.tables.mapIdx fun k t => (k, t)) with
  | none => {}
  | some route =>
    { visits := q.visits s route.reversed [] route.steps
      isOrdered := route.order = some q.wanted.keys.length }

end Question

namespace Plan

/-- The plan for the rows of one table that meet a condition. -/
def ofTable (d : Database) (t : Table) (condition : PlacedTerm) : Plan :=
  let (tables, conditions) := Condition.settle [.ofDatabase d t 0 .inner] (Condition.ofTerms [(condition, none)])
  let q : Question := { tables, conditions, columns := [], wanted := {} }
  q.plan

/-- Where a row comes in the order of a plan, if it is found. A row without
a part from an optional table is found without looking that up. -/
def key? (p : Plan) (args cells : List Value) :
    Except EngineFault (Option (List (List (Value × Bool)))) := do
  let keys ← p.visits.mapM fun (visit, isOptional) => do
    let key ← visit.key? args cells
    return if isOptional then some (key.getD []) else key
  return keys.mapM id

/-- The order of two positions in a visit. -/
def compareKeys : List (Value × Bool) → List (Value × Bool) → Ordering
  | (a, descending) :: as, (b, _) :: bs =>
    let first := Cell.order .binary a b
    (if descending then first.swap else first).then (compareKeys as bs)
  | _, _ => .eq

/-- The order of two positions in a plan. -/
def compare (as bs : List (List (Value × Bool))) : Ordering :=
  ((as.zip bs).map fun (a, b) => compareKeys a b).foldl (·.then ·) .eq

/-- Whether the plan finds a row. -/
def finds (p : Plan) (args cells : List Value) : Except EngineFault Bool := do
  return (← p.key? args cells).isSome

/-- The rows that a plan finds, in its order. -/
def arrange (p : Plan) (args : List Value) (rows : List (List Value)) :
    Except EngineFault (List (List Value)) := do
  let keyed ← rows.mapM fun cells => do return (← p.key? args cells).map (·, cells)
  return ((keyed.filterMap id).mergeSort fun a b => compare a.1 b.1 != .gt).map (·.2)

end Plan

end TypedTables

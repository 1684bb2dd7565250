import TypedTables.Database.Criterion
/-!
# TypedTables — ways to the rows of a table

The rows of a table can be found by going through all of them, by their
numbers, along an index, or by an index that is built for one query alone;
a condition with alternatives can be met by finding the rows of each
alternative. Each way has an estimated cost and an estimated number of rows.
A way is dropped for another one that needs no more tables, costs no more
and finds no more rows.
-/

namespace TypedTables

/-- How the rows of a table are found. -/
inductive Way
  /-- All of them, in the order of their numbers. -/
  | scan
  /-- By their numbers. -/
  | number
  /-- Along an index. -/
  | index (i : KeyIndex)
  /-- Along an index that is built for the query. -/
  | built
  /-- What each alternative of a condition finds. -/
  | alternatives (c : Condition)

/-- Whether it goes along an index that the table has. -/
def Way.isIndex : Way → Bool
  | .index _ => true
  | .scan | .number | .built | .alternatives _ => false

/-- Whether it goes along an index that is built for the query. -/
def Way.isBuilt : Way → Bool
  | .built => true
  | .scan | .number | .index _ | .alternatives _ => false

/-- A way to the rows of a table. -/
structure Access where
  table : Nat
  way : Way
  /-- The tables that are visited before. -/
  needs : List Nat := []
  /-- What it costs once. -/
  setup : Option Estimate := none
  /-- What it costs each time. -/
  cost : Estimate
  rows : Estimate
  /-- The criteria it searches for, in the order of its key. -/
  used : List Criterion := []
  /-- For how many columns of its key it searches for single values. -/
  points : Nat := 0
  /-- Whether it finds one row at most. -/
  isSingle : Bool := false
  /-- Whether the cells of an index are all that is read. -/
  isCovered : Bool := false
  /-- The ways that are compared with it: those without a useful order have
  none of their own. -/
  rank : Nat := 0

namespace Access

/-- Whether it searches by a bound of some kind. -/
def searches (a : Access) (bound : Bound → Bool) : Bool := a.used.any fun c => c.bound.any bound

/-- Whether it narrows down the rows of the table by itself. -/
def isSearch (a : Access) : Bool :=
  match a.way with
  | .alternatives _ => false
  | .scan | .number | .index _ | .built => !a.used.isEmpty

/-- Whether some tables are all among others. -/
def isWithin (xs ys : List Nat) : Bool := xs.all ys.contains

/-- Whether one way searches for less than another and yet is no worse. -/
def isCheaperPart (a b : Access) : Bool :=
  a.used.length < b.used.length && (a.cost ≤ b.cost || a.rows ≤ b.rows) &&
    (a.used.all fun c => b.used.any fun d => d.position = c.position) && (!a.isCovered || b.isCovered)

/-- The way, its estimates brought into line with those of another one along
an index: who searches for more does not find more. -/
def align (a b : Access) : Access :=
  if a.table ≠ b.table || !a.way.isIndex || !b.way.isIndex then a
  else if isCheaperPart b a then { a with cost := min b.cost a.cost, rows := min (b.rows - 1) a.rows }
  else if isCheaperPart a b then { a with cost := max b.cost a.cost, rows := max (b.rows + 1) a.rows }
  else a

/-- Whether two ways are compared at all. -/
def isComparable (a b : Access) : Bool := a.table = b.table && a.rank = b.rank

/-- Whether a way spares the building of an index. -/
def spares (a b : Access) : Bool :=
  b.way.isBuilt && a.way.isIndex && a.searches (· == .equal) && isWithin a.needs b.needs

/-- Whether a way makes another one superfluous that was found later. -/
def precedes (a b : Access) : Bool :=
  isWithin a.needs b.needs && (a.setup.getD 0) ≤ (b.setup.getD 0) && a.cost ≤ b.cost && a.rows ≤ b.rows

/-- Whether a way makes another one superfluous that was found before. -/
def replaces (a b : Access) : Bool :=
  spares a b || (isWithin a.needs b.needs && a.cost ≤ b.cost && a.rows ≤ b.rows)

/-- The ways that a new one leaves. -/
def remaining (new : Access) : List Access → List Access
  | [] => []
  | a :: rest =>
    if !isComparable a new then a :: remaining new rest
    else if !spares new a && precedes a new then a :: rest
    else if replaces new a then remaining new rest
    else a :: remaining new rest

/-- Puts a new way in the place of one that it replaces, or else behind the
others, unless one of them precedes it. -/
def place (new : Access) : List Access → List Access
  | [] => [new]
  | a :: rest =>
    if !isComparable a new then a :: place new rest
    else if !spares new a && precedes a new then a :: rest
    else if replaces new a then new :: remaining new rest
    else a :: place new rest

/-- Adds a way to those found before. -/
def add (found : List Access) (new : Access) : List Access := place (found.foldl align new) found

end Access

/-- What a search through the tables of a query goes by. -/
structure Search where
  reading : Criterion.Reading
  criteria : List Criterion
  /-- The criteria around them, where they belong to one alternative. -/
  outer : List Criterion := []
  /-- The columns that the query reads. -/
  columns : List Site
  /-- The columns that the rows are wanted in the order of. -/
  ordered : List Site
  /-- The tables that come before the one that is searched, in any case. -/
  before : List Nat := []

/-- A column of a key, and what searching for it does. -/
structure KeyColumn where
  column : Option Nat
  /-- Whether the key can be empty there, as far as its column is declared. -/
  canBeEmpty : Bool := false
  /-- The number of rows with the same key up to this column, of those with
  the same key before it. -/
  share : Estimate
  /-- Whether one row at most has the same key up to this column. -/
  isComplete : Bool

/-- What rows of a table can be searched by: their numbers, or an index. -/
structure Key where
  way : Way
  columns : List KeyColumn
  isCovered : Bool
  rank : Nat
  /-- What it costs to go through rows once they are found. -/
  visit : Estimate → Estimate

/-- A search by a key that has come to some of its columns. -/
structure Partial where
  used : List Criterion := []
  points : Nat := 0
  needs : List Nat := []
  rows : Estimate := .ofTable
  /-- How many values are searched for, one after the other. -/
  factor : Estimate := 0
  isSingle : Bool := false

namespace Search

/-- The table at a position. -/
def table? (s : Search) (t : Nat) : Option PlacedTable := s.reading.tables[t]?

/-- The columns of a table that the query reads. -/
def columnsOf (s : Search) (t : Nat) : List Nat :=
  (s.columns.filter (·.table = t)).filterMap (·.column)

/-- Columns that conditions equate with others, taken up one after the other. -/
def spread (criteria : List Criterion) : (fuel : Nat) → List Site → List Site → List Site
  | 0, done, _ => done
  | _, done, [] => done
  | fuel + 1, done, x :: rest =>
    let found := (criteria.filter fun c => c.column == some x && c.isEquation).filterMap (·.other)
    let new := (found.filter fun y => !(done ++ x :: rest).contains y).eraseDups
    spread criteria fuel (done ++ [x]) (rest ++ new)

/-- The columns that are equal to a column, itself first. -/
def equals (s : Search) (site : Site) : List Site := spread (s.criteria ++ s.outer) 11 [] [site]

/-- The criteria that bound a column, or one that is equal to it. -/
def bounds (s : Search) (site : Site) : List Criterion :=
  (s.equals site).flatMap fun x =>
    (s.criteria ++ s.outer).filter fun c =>
      c.column == some x && c.bound.isSome && (x = site || c.condition.joins.isNone) &&
        !(c.bound == some .equal && c.other == some site)

/-- The criteria by which a column of a key can be searched. -/
def usable (s : Search) (t : Nat) (k : KeyColumn) : List Criterion :=
  let isOptional := (s.table? t).any (·.isOptional)
  let affinity := Site.affinity s.reading.tables ⟨t, k.column⟩
  (s.bounds ⟨t, k.column⟩).filter fun c =>
    !c.needs.contains t && (!isOptional || c.condition.joins == some t) &&
      (k.canBeEmpty || !(c.bound == some .empty || c.bound == some .filled)) &&
      (k.column.isNone || c.bound == some .empty || Criterion.fits c.affinity affinity)

/-- The number of rows that a way finds, less those that conditions it does
not search for will refuse. -/
def expected (s : Search) (a : Access) : Estimate :=
  let unused := s.criteria.filter fun c =>
    c.isWhole && c.tables.contains a.table && Access.isWithin c.tables (a.table :: a.needs) &&
      !a.used.any (·.covers c)
  min (a.rows - unused.length) (.ofTable - (unused.map (·.narrowing)).foldl max 0)

/-- The way with the number of rows that it is expected to find. -/
def settle (s : Search) (a : Access) : Access := { a with rows := s.expected a }

/-- Whether an order of rows can help to get the wanted one. -/
def helps (s : Search) (t : Nat) (columns : List Nat) : Bool :=
  s.ordered.any fun x =>
    x.table = t &&
      match x.column with
      | none => true
      | some i => columns.contains i

/-- The key that the numbers of rows are. -/
def numberKey (s : Search) (t : Nat) : Key :=
  { way := .number
    columns := [{ column := none, share := -.ofTable, isComplete := true }]
    isCovered := true
    rank := if s.helps t [] then 1 else 0
    visit := (· + 16) }

/-- The estimated number of rows with the same first columns of an index. -/
def sharing (i : KeyIndex) (columns : Nat) : Estimate :=
  if columns = 0 then .ofTable
  else if i.columns.length < columns || (i.isUnique && columns = i.columns.length) then 0
  else [33, 32, 30, 28, 26].getD (columns - 1) 23

/-- The cost of going through entries of an index. -/
def entryCost (t : PlacedTable) (i : KeyIndex) (rows : Estimate) : Estimate :=
  rows + 1 + (15 * t.entrySize i).tdiv t.rowSize

/-- The key of an index, which ends with the number of the row. -/
def indexKey (s : Search) (k : Nat) (t : PlacedTable) (i : KeyIndex) (rank : Nat) : Key :=
  let isFilled := i.columns.all fun c => !t.canBeEmpty (some c)
  let isLast (j : Nat) : Bool := j + 1 = i.columns.length
  { way := .index i
    columns := (i.columns.map t.columnAt ++ [none]).mapIdx fun j column =>
      { column
        canBeEmpty := (i.columns[j]?).any fun c => t.canBeEmpty (some c)
        share := sharing i (j + 1) - sharing i j
        isComplete := column.isNone || (isLast j && i.isUnique && (isFilled || j = 0)) }
    isCovered := (s.columnsOf k).all i.columns.contains
    rank := if s.helps k i.columns then rank + 2 else 0
    visit := entryCost t i }

/-- The way of a search that ends here. -/
def access (s : Search) (t : Nat) (key : Key) (p : Partial) : Access :=
  let found := Estimate.sum (Estimate.steps .ofTable) (key.visit p.rows)
  let cost := if key.isCovered then found else Estimate.sum found (p.rows + 16)
  s.settle {
    table := t, way := key.way, needs := (s.before ++ p.needs.filter (· ≠ t)).eraseDups
    cost := cost + p.factor, rows := p.rows + p.factor
    used := p.used, points := p.points, isSingle := p.isSingle
    isCovered := key.way.isIndex && key.isCovered, rank := key.rank }

namespace Partial

/-- The rows within one or two bounds of a column. -/
def within (rows : Estimate) (bounds : List Criterion) : Estimate :=
  let sides : Estimate := (bounds.filter (·.bound ≠ some .filled)).length
  let both : Estimate := if bounds.length = 2 then 20 else 0
  min (rows - bounds.length) (max 10 (rows - 20 * sides - both))

/-- A search within bounds of its last column. -/
def bounded (p : Partial) (bounds : List Criterion) : Partial :=
  { p with
    used := p.used ++ bounds
    needs := (p.needs ++ bounds.flatMap (·.needs)).eraseDups
    rows := within p.rows bounds }

/-- A search for single values of one more column. -/
def pointed (p : Partial) (k : KeyColumn) (c : Criterion) : Partial :=
  { p with
    used := p.used ++ [c]
    points := p.points + 1
    needs := (p.needs ++ c.needs).eraseDups
    rows := p.rows + k.share + if c.bound = some .empty then 10 else 0
    factor := p.factor +
      match c.bound with
      | some (.among n) => .ofNat n
      | _ => 0
    isSingle := p.isSingle ||
      c.bound == some .equal && k.isComplete && (k.column.isNone || p.factor = 0) }

end Partial

/-- The searches by a key, from one of its columns on. -/
def byKey (s : Search) (t : Nat) (key : Key) : List KeyColumn → Partial → List Access
  | [], _ => []
  | k :: rest, p =>
    let usable := s.usable t k
    usable.flatMap fun c =>
      if c.bound.any (·.isPoint) then
        let next := Partial.pointed p k c
        s.access t key next :: s.byKey t key rest next
      else if c.bound == some .below then [s.access t key (Partial.bounded p [c])]
      else
        let tops := usable.filter (·.bound == some .below)
        (([c] :: tops.map fun top => [c, top]).map (Partial.bounded p)).map (s.access t key)

/-- The ways over indexes that are built for the query. -/
def building (s : Search) (k : Nat) (t : PlacedTable) : List Access :=
  let isLeading (column : Nat) : Bool := t.indexes.any fun i => i.columns.head? = some column
  let drives (c : Criterion) : Bool :=
    match c.column, c.bound with
    | some ⟨table, some column⟩, some .equal =>
      table = k && !c.needs.contains k && !isLeading column &&
        (!t.isOptional || c.condition.joins == some k) &&
        Criterion.fits c.affinity (Site.affinity s.reading.tables ⟨k, some column⟩)
    | _, _ => false
  let steps := Estimate.steps .ofTable
  (s.criteria.filter drives).map fun c =>
    { table := k, way := .built, needs := (s.before ++ c.needs).eraseDups, setup := some (steps + .ofTable + 28)
      cost := Estimate.sum steps 43, rows := 43, used := [c], points := 1 }

/-- The ways that go through all rows along an index: because their order
helps, or because the entries are smaller than the rows and hold all that is
read. -/
def along (s : Search) (k : Nat) (t : PlacedTable) (i : KeyIndex) (key : Key) : List Access :=
  if key.rank = 0 && !(key.isCovered && t.entrySize i < t.rowSize) then []
  else
    let isKept (c : Criterion) : Bool :=
      (s.reading.columnsOf c.condition.term).all fun x => x.table ≠ k || x.column.all i.columns.contains
    let kept := (s.criteria ++ s.outer).takeWhile isKept
    let lookups := kept.foldl (fun n c => n - 1 - if c.bound = some .equal then 19 else 0) (Estimate.ofTable + 16)
    let visits := entryCost t i .ofTable
    [s.settle {
      table := k, way := key.way, needs := s.before, rows := .ofTable
      cost := if key.isCovered then visits else Estimate.sum visits lookups
      isCovered := key.isCovered, rank := key.rank }]

/-- The ways to the rows of a table without alternatives. -/
def direct (s : Search) (k : Nat) (t : PlacedTable) : List Access :=
  let number := s.numberKey k
  let scan := s.settle {
    table := k, way := .scan, needs := s.before, cost := .ofTable + 16, rows := .ofTable, rank := number.rank }
  let indexes := t.indexes.mapIdx fun rank i =>
    let key := s.indexKey k t i rank
    s.along k t i key ++ s.byKey k key key.columns {}
  scan :: s.byKey k number number.columns {} ++ indexes.flatten

/-- What finding the rows of one alternative, or of some, takes. -/
structure Offer where
  needs : List Nat
  cost : Estimate
  rows : Estimate

namespace Offer

/-- The offers with a new one among the three best. -/
def add (offers : List Offer) (new : Offer) : List Offer :=
  let isBeaten (o : Offer) : Bool := o.cost ≤ new.cost && Access.isWithin o.needs new.needs
  let isWorse (o : Offer) : Bool := new.cost ≤ o.cost && Access.isWithin new.needs o.needs
  match offers.find? fun o => isWorse o || isBeaten o with
  | some o =>
    if isWorse o then
      let i := offers.findIdx fun o => isWorse o || isBeaten o
      offers.set i { new with rows := min o.rows new.rows }
    else offers
  | none => if offers.length < 3 then offers ++ [new] else offers

/-- The offers for two alternatives together. -/
def both (xs ys : List Offer) : List Offer :=
  (xs.flatMap fun x => ys.map fun y =>
    ⟨(x.needs ++ y.needs).eraseDups, Estimate.sum x.cost y.cost, Estimate.sum x.rows y.rows⟩).foldl add []

end Offer

/-- The ways that find the rows of each alternative of a condition. The fuel
bounds how deep alternatives stand within alternatives. -/
def byAlternatives : (fuel : Nat) → Search → Nat → PlacedTable → List Access
  | 0, _, _, _ => []
  | fuel + 1, s, k, t =>
    s.criteria.flatMap fun c =>
      let condition := c.condition
      if !c.isWhole || !Criterion.Reading.hasAlternatives condition ||
        !(s.reading.boundTables condition).contains k then []
      else
        let arms := (s.reading.arms c.position k condition).map fun x =>
          let arm := { s with criteria := x.criteria, outer := s.criteria ++ s.outer }
          let ways := (arm.direct k t).filter (!·.used.isEmpty) ++ byAlternatives fuel arm k t
          (ways.map fun a => Offer.mk a.needs a.cost a.rows).foldl Offer.add []
        let offers :=
          match arms with
          | [] => []
          | first :: rest => rest.foldl Offer.both first
        offers.map fun o =>
          { table := k, way := .alternatives condition, needs := o.needs
            cost := o.cost + 1, rows := o.rows, used := [c] }

/-- The ways to the rows of a table, the best of those that can be compared.
A table whose rows are optional comes after all those before it. -/
def ways (s : Search) (k : Nat) (t : PlacedTable) : List Access :=
  let before := if t.isFixed then (List.range k).filter (!s.reading.settled.contains ·) else []
  let s := { s with before }
  (s.building k t ++ s.direct k t ++ byAlternatives 3 s k t).foldl Access.add []

end Search

end TypedTables

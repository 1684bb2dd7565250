import TypedTables.Database.Catalog
import TypedTables.Database.Plan
import TypedTables.Row
/-!
# TypedTables — queries

How a query is answered. Its tables are joined row by row, the condition
picks rows, and the rows are gathered into groups if the query groups or
counts; every group shows its first row. Groups are then ordered, cut and
shown. What a query does not order comes in the order of its plan, or of the
values it is grouped by.
-/

namespace TypedTables

namespace Query

/-- The rows of joined tables: what can be named in them, how they have been
joined, and their cells. -/
structure Joined where
  scope : Scope := []
  tables : List PlacedTable := []
  /-- The conditions of the joins, and the tables whose rows are optional. -/
  conditions : List (PlacedTerm × Option Nat) := []
  rows : List (List Value)

/-- The answer to a query without tables is computed from one empty row. -/
def start : Joined := { rows := [[]] }

/-- A table by itself. -/
def ofTable (d : Database) (t : Table) : Joined :=
  { scope := Scope.ofTable t, tables := [.ofDatabase d t 0 .inner], rows := t.rows.map t.cellsOf }

/-- The rows of two lists, side by side, that a condition accepts. With
`keepLeft`, a row on the left that is joined to none stands beside empty
cells. -/
def pairs (args : List Value) (condition : PlacedTerm) (keepLeft : Bool) (width : Nat)
    (left right : List (List Value)) : Except EngineFault (List (List Value)) := do
  let rows ← left.mapM fun a => do
    let found ← (right.map (a ++ ·)).filterM fun cells => condition.accepts args 1 cells
    if found.isEmpty && keepLeft then return [a ++ List.replicate width .null] else return found
  return rows.flatten

/-- Columns of the same name on both sides, as the condition of a natural
join. -/
def naturalCondition (left right : Scope) : Except EngineFault NamedTerm := do
  let matchOf (c : ScopeColumn) : Option ScopeColumn :=
    left.find? fun l => !l.isMerged && !l.isHidden && Keyword.same l.name c.name
  let terms ← (right.filter fun c => !c.isHidden && (matchOf c).isSome).mapM fun c => do
    match matchOf c with
    | some l =>
      return Term.compare .equal (.column ⟨some l.table, l.name⟩) (.column ⟨some c.table, c.name⟩)
    | none => throw (.noSuchColumn c.name)
  return terms.foldr .and .always

/-- The columns of a table after a natural join to others. -/
def mergedScope (left right : Scope) : Scope :=
  right.map fun c =>
    { c with
      isMerged := !c.isHidden &&
        left.any fun l => !l.isMerged && !l.isHidden && Keyword.same l.name c.name }

/-- Joins one more table. -/
def joinTable (d : Database) (args : List Value) (left : Joined) (j : JoinedTable) :
    Except EngineFault Joined := do
  let t ← d.readable j.table
  let right := Scope.ofTable t
  let scope := left.scope ++ right
  if j.kind = .natural && j.on.isSome then throw .syntaxError
  let on ← if j.kind = .natural then some <$> naturalCondition left.scope right else pure j.on
  let condition ← Scope.resolveCondition scope on
  let isOptional : Bool := j.kind = .leftOuter
  let joins := if isOptional then some left.tables.length else none
  return {
    scope := if j.kind = .natural then left.scope ++ mergedScope left.scope right else scope
    tables := left.tables ++ [.ofDatabase d t left.scope.length j.kind]
    conditions := left.conditions ++ if on.isSome then [(condition, joins)] else []
    rows := ← pairs args condition isOptional right.length left.rows (t.rows.map t.cellsOf) }

/-- All tables of a query, joined from the first to the last. -/
def source (d : Database) (args : List Value) (q : SelectQuery) : Except EngineFault Joined := do
  match q.source with
  | none => return start
  | some table => q.joins.foldlM (joinTable d args) (ofTable d (← d.readable table))

/-- A column of the answer: its name and what it shows. -/
structure Shown where
  label : String
  term : PlacedTerm

/-- All columns, or all of one table. -/
def showAll (s : Scope) (table : Option String) : Except EngineFault (List Shown) := do
  let shown := s.zipIdx.filter fun (c, _) =>
    !c.isHidden &&
      match table with
      | none => !c.isMerged
      | some name => Keyword.same c.table name
  if shown.isEmpty then throw (.noSuchTable (table.getD "*"))
  return shown.map fun (c, i) => ⟨c.name, .column ⟨i, c.affinity⟩⟩

/-- The name of a column of the answer: the one that is given to it, the
column's own, or the text of the term. -/
def labelOf (s : Scope) (term : PlacedTerm) (label : Option String) (spelling : String) : String :=
  match label, term with
  | some name, _ => name
  | none, .column place => ((s[place.index]?).map (·.name)).getD spelling
  | none, _ => spelling

def showColumn (s : Scope) : ResultColumn → Except EngineFault (List Shown)
  | .all table => showAll s table
  | .term term label spelling => do
    let placed ← s.resolve term
    return [⟨labelOf s placed label spelling, placed⟩]

/-- The terms behind the names that a query gives to columns of its answer.
Columns that are shown together keep their own names. -/
def answerNames (s : Scope) (columns : List ResultColumn) :
    Except EngineFault (List (String × PlacedTerm)) := do
  let named ← columns.mapM fun c => do
    match c with
    | .all table => return (← showAll s table).map fun c => (c.label, c.term)
    | .term term (some label) _ => return [(label, ← s.resolve term)]
    | .term _ none _ => return []
  return named.flatten

/-- What the conditions and keys of a query can refer to. -/
structure Surroundings where
  scope : Scope
  names : List (String × PlacedTerm)
  shown : List Shown

namespace Surroundings

/-- The term behind a name of the answer. -/
def named? (e : Surroundings) (name : ColumnName) : Option PlacedTerm :=
  if name.table.isSome then none
  else (e.names.find? fun entry => Keyword.same entry.1 name.name).map (·.2)

/-- A column of the tables, or else one of the answer. -/
def find (e : Surroundings) (name : ColumnName) : Except EngineFault PlacedTerm :=
  match e.scope.find name with
  | .ok place => .ok (.column place)
  | .error (.noSuchColumn missing) => (e.named? name).elim (.error (.noSuchColumn missing)) .ok
  | .error fault => .error fault

/-- A condition. -/
def resolve (e : Surroundings) (t : NamedTerm) : Except EngineFault PlacedTerm := t.resolve e.find

/-- A key to group by. A whole number is the position of a column of the
answer. -/
def resolveKey (e : Surroundings) : NamedTerm → Except EngineFault PlacedTerm
  | .literal (.integer n) =>
    match e.shown[n.toInt.toNat - 1]? with
    | some column => if 0 < n.toInt then .ok column.term else .error .unsupported
    | none => .error .unsupported
  | t => e.resolve t

/-- A key to order by. Names of the answer come before those of the tables. -/
def resolveOrder (e : Surroundings) : NamedTerm → Except EngineFault PlacedTerm
  | .column name => (e.named? name).elim (e.resolveKey (.column name)) .ok
  | t => e.resolveKey t

end Surroundings

/-- A term that speaks of single rows. -/
def requireSingle (t : PlacedTerm) : Except EngineFault PlacedTerm :=
  if t.isAggregate then .error .unsupported else .ok t

/-- Rows that are shown as one: how many, and the cells of the first. -/
structure Group where
  size : Nat
  cells : List Value

/-- The order of two rows of keys under their collations, each perhaps the
other way round. -/
def orderKeys : List (Collation × Bool) → List Value → List Value → Ordering
  | (c, descending) :: rest, a :: as, b :: bs =>
    let first := Cell.order c a b
    (if descending then first.swap else first).then (orderKeys rest as bs)
  | _, _, _ => .eq

/-- Sorts by keys, and leaves equal ones in their order. -/
def sortByKeys {α : Type} (directions : List (Collation × Bool)) (keyed : List (List Value × α)) :
    List (List Value × α) :=
  keyed.mergeSort fun a b => orderKeys directions a.1 b.1 != .gt

/-- Gathers neighbours with the same keys. -/
def gather (directions : List (Collation × Bool)) : List (List Value × List Value) → List (List Value × Group)
  | [] => []
  | (key, cells) :: rest =>
    match gather directions rest with
    | [] => [(key, ⟨1, cells⟩)]
    | (next, g) :: groups =>
      if orderKeys directions key next == .eq then (key, ⟨g.size + 1, cells⟩) :: groups
      else (key, ⟨1, cells⟩) :: (next, g) :: groups

/-- The groups of a query that groups its rows, which may come in order
already. -/
def groupRows (args : List Value) (keys : List WantedKey) (isOrdered : Bool) (rows : List (List Value)) :
    Except EngineFault (List Group) := do
  let keyed ← rows.mapM fun cells => do return (← keys.mapM (·.term.eval args 1 cells), cells)
  let directions := keys.map fun key => (Collation.binary, key.descending)
  return (gather directions (if isOrdered then keyed else sortByKeys directions keyed)).map (·.2)

/-- The groups that a query shows. A query that counts without grouping has
one group, even of no rows; one that does neither shows every row. -/
def groups (args : List Value) (keys : List WantedKey) (isOrdered isCounting : Bool)
    (rows : List (List Value)) : Except EngineFault (List Group) :=
  if !keys.isEmpty then groupRows args keys isOrdered rows
  else if isCounting then return [⟨rows.length, rows.head?.getD []⟩]
  else return rows.map (⟨1, ·⟩)

/-- The keys to group by. Groups come in the directions in which they are
ordered, if there are as many keys for that. -/
def groupKeys (keys : List PlacedTerm) (orderBy : List WantedKey) : List WantedKey :=
  keys.mapIdx fun i term =>
    { term
      descending := keys.length = orderBy.length && (orderBy[i]?).any (·.descending) }

/-- The order in which a query wants its rows, before they are grouped if
they are. -/
def wanted (q : SelectQuery) (width : Nat) (keys orderBy : List WantedKey) (isCounting : Bool) : Wanted :=
  if !keys.isEmpty then { keys, isGrouping := true, isOrdering := keys = orderBy, width }
  else if isCounting then { width }
  else
    let limit := q.limit.bind fun l => if l.count < 0x8000_0000 then some (Estimate.ofNat l.count) else none
    { keys := orderBy, limit, width }

/-- The part of a list that a limit leaves. -/
def cut {α : Type} (limit : Option Limit) (items : List α) : List α :=
  match limit with
  | some l => (items.drop l.offset).take l.count
  | none => items

/-- The plan for joined rows that a condition picks. -/
def plan (joined : Joined) (condition : Option PlacedTerm) (having : PlacedTerm) (shown : List PlacedTerm)
    (wanted : Wanted) (orderBy : List WantedKey) : Plan :=
  let all := condition.toList.map (·, none) ++ joined.conditions
  let (tables, conditions) := Condition.settle joined.tables (Condition.ofTerms all)
  let keys := wanted.keys.map (·.term)
  let terms := shown ++ having :: keys ++ orderBy.map (·.term) ++
    all.map (·.1)
  let columns := terms.flatMap fun t => t.references.map fun p => Site.ofPlace tables p.index
  let q : Question := {
    tables
    conditions := conditions ++ if wanted.isGrouping then Condition.ofGroups keys having else []
    columns, wanted }
  q.plan

/-- The answer to a query. Where it neither groups nor counts, it has no
condition on groups, and what is counted in its order has nothing to sort. -/
def run (d : Database) (q : SelectQuery) (args : List Value) : Except EngineFault Cursor := do
  let joined ← source d args q
  let shown := (← q.columns.mapM (showColumn joined.scope)).flatten
  let isCounting := shown.any (·.term.isAggregate)
  let e : Surroundings := ⟨joined.scope, ← answerNames joined.scope q.columns, shown⟩
  let condition ← q.condition.mapM fun t => do requireSingle (← e.resolve t)
  let keys ← q.groupBy.mapM fun t => do requireSingle (← e.resolveKey t)
  let having ← e.resolve (q.having.getD Term.always)
  let orderBy ← q.orderBy.mapM fun k => do
    return WantedKey.mk (← e.resolveOrder k.term) k.collation k.descending
  let isPlain := keys.isEmpty && !isCounting
  if isPlain && q.having.isSome then throw .unsupported
  let keys := groupKeys keys orderBy
  let wanted := wanted q shown.length keys orderBy isCounting
  let plan := plan joined condition having (shown.map (·.term)) wanted orderBy
  if isPlain && !plan.isOrdered && orderBy.any (·.term.isAggregate) then throw .unsupported
  let conditions := condition.toList ++ (Condition.ofGroups (keys.map (·.term)) having).map (·.term)
  let rows ← joined.rows.filterM ((conditions.foldr Term.and Term.always).accepts args 1)
  let groups ← (← groups args keys plan.isOrdered isCounting (← plan.arrange args rows)).filterM fun g =>
    having.accepts args g.size g.cells
  let keyed ← groups.mapM fun g => do return (← orderBy.mapM (·.term.eval args g.size g.cells), g)
  let sorted := sortByKeys (orderBy.map fun key => (key.collation, key.descending)) keyed
  let shownRows ← (cut q.limit sorted).mapM fun (_, g) => shown.mapM (·.term.eval args g.size g.cells)
  return ⟨shown.map (·.label), shownRows⟩

end Query

end TypedTables

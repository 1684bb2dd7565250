import Mathlib.Data.List.Pairwise
import TypedTables.Database.Engine
import TypedTables.Proofs.Schema.Grammar
/-!
# TypedTables — engines that create schemas

What a migration may expect of an engine, whichever it is. A dialect tells which
words can be names without quotes, and which cannot; an inventory tells which
tables and indexes there are. An engine *speaks* a dialect if it does with the
statements of a schema what SQL says, as far as the inventory shows: it refuses
a word that is no name, it leaves alone what is there already where it may, and
creates what is not. The two kinds of words need not be all there are. What an
engine does with the others is left open.
-/

namespace TypedTables

namespace Keyword

variable {a b c : String}

theorem same_iff : same a b = true ↔ fold a = fold b := by simp [same]

theorem same_refl (a : String) : same a a = true := same_iff.2 rfl

theorem same_comm (a b : String) : same a b = same b a := by
  rw [Bool.eq_iff_iff, same_iff, same_iff]
  exact eq_comm

theorem same_trans (hab : same a b = true) (hbc : same b c = true) : same a c = true :=
  same_iff.2 ((same_iff.1 hab).trans (same_iff.1 hbc))

/-- **Names that an engine tells apart**: they differ in more than the case of
their letters. -/
def Differ (a b : String) : Prop := same a b = false

instance : DecidableRel Differ := fun a b => inferInstanceAs (Decidable (same a b = false))

theorem Differ.symm (h : Differ a b) : Differ b a := (same_comm b a).trans h

/-- What has a name is told apart in either order. -/
instance {α : Type} (name : α → String) : Std.Symm fun x y => Differ (name x) (name y) :=
  ⟨fun _ _ h => h.symm⟩

theorem differ_iff : Differ a b ↔ fold a ≠ fold b := by simp [Differ, same]

theorem Differ.ne (h : Differ a b) : a ≠ b := fun he => differ_iff.1 h (congrArg fold he)

theorem not_differ : ¬Differ a b ↔ same a b = true := Bool.not_eq_false _ ▸ Iff.rfl

end Keyword

open Keyword (Differ)

/-! ## Statements -/

/-- **A statement of a schema.** -/
inductive SchemaStatement
  | table (table : WrittenTable)
  | index (index : WrittenIndex)

/-- Where a name stands in a statement. -/
inductive Place
  /-- As the name of what is created. -/
  | created
  /-- Where nothing but a name can stand. -/
  | named
  /-- Among the columns of an index or of a unique group, where terms can stand. -/
  | operand
deriving Repr, DecidableEq

def WrittenClause.words : WrittenClause → List (Place × String)
  | column c => [(.named, c.name)]
  | foreignKey fk => [(.named, fk.localColumn), (.named, fk.targetTable), (.named, fk.targetColumn)]
  | unique columns => columns.map fun c => (.operand, c)

/-- **Whether the clauses of a table go together**: there is one key at most,
only a key of integers is numbered, no column is defined twice, and keys and
groups are about columns that there are. -/
structure WrittenTable.IsDefinable (t : WrittenTable) : Prop where
  key_unique : (t.columns.filter (·.isPrimaryKey)).length ≤ 1
  isKey_of_autoIncrement : ∀ c ∈ t.columns, c.isAutoIncrement = true → c.isPrimaryKey = true ∧ c.affinity = .integer
  columns_differ : t.columnNames.Pairwise Differ
  localColumn_mem : ∀ fk ∈ t.foreignKeys, fk.localColumn ∈ t.columnNames
  uniqueColumn_mem : ∀ group ∈ t.uniqueGroups, ∀ c ∈ group, c ∈ t.columnNames

namespace SchemaStatement

def sql : SchemaStatement → String
  | table t => t.sql
  | index i => i.sql

/-- The name of what is created. -/
def name : SchemaStatement → String
  | table t => t.name
  | index i => i.name

def ifNotExists : SchemaStatement → Bool
  | table t => t.ifNotExists
  | index i => i.ifNotExists

/-- The names in a statement, and where they stand. -/
def words : SchemaStatement → List (Place × String)
  | table t => (.created, t.name) :: t.clauses.flatMap WrittenClause.words
  | index i => [(.created, i.name), (.named, i.table), (.operand, i.column)]

def IsSpelled : SchemaStatement → Prop
  | table t => t.IsSpelled
  | index i => i.IsSpelled

/-- **Whether a statement is one, but for its names**: its groups have columns,
and it does not end within a text. -/
def IsWhole : SchemaStatement → Prop
  | table t => [] ∉ t.uniqueGroups ∧ t.endsText = false
  | index _ => True

def IsDefinable : SchemaStatement → Prop
  | table t => t.IsDefinable
  | index _ => True

end SchemaStatement

/-! ## Dialects -/

/-- **What a version of SQL says of names and sizes.** -/
structure Dialect where
  /-- The words that are names at a place. -/
  takes : Place → String → Prop
  /-- The words that cannot stand there. -/
  refuses : Place → String → Prop
  /-- The statements that keep to its limits. -/
  fits : SchemaStatement → Prop

namespace Dialect

variable (w : Dialect) (s : SchemaStatement)

/-- Whether all names of a statement are names where they stand. -/
def Takes : Prop := ∀ x ∈ s.words, w.takes x.1 x.2

/-- Whether some name of a statement cannot stand where it does. -/
def Refuses : Prop := ∃ x ∈ s.words, w.refuses x.1 x.2

/-- **Whether a dialect has a say on a statement**: each of its names is one, or
cannot be one, and it keeps to the limits. -/
structure Decides : Prop where
  words : ∀ x ∈ s.words, w.takes x.1 x.2 ∨ w.refuses x.1 x.2
  fits : w.fits s

variable {w s}

theorem Decides.takes_of_not_refuses (h : w.Decides s) (hr : ¬w.Refuses s) : w.Takes s := fun x hx =>
  (h.words x hx).resolve_right fun hx' => hr ⟨x, hx, hx'⟩

end Dialect

/-! ## Inventories -/

/-- A table that there is. -/
structure ListedTable where
  name : String
  columns : List String
  rows : Nat
deriving Repr, DecidableEq

/-- An index that there is. -/
structure ListedIndex where
  name : String
  table : String
  columns : List String
deriving Repr, DecidableEq

/-- **The tables and indexes that there are**, in the order in which they were
created. What an engine keeps for itself is not among them. -/
structure Inventory where
  tables : List ListedTable := []
  indexes : List ListedIndex := []
deriving Repr, DecidableEq

namespace Inventory

variable (v : Inventory)

def table? (name : String) : Option ListedTable := v.tables.find? fun t => Keyword.same t.name name

/-- Whether there is a table that a name stands for. -/
def HasTable (name : String) : Prop := ∃ t ∈ v.tables, Keyword.same t.name name = true

def HasIndex (name : String) : Prop := ∃ i ∈ v.indexes, Keyword.same i.name name = true

/-- Whether there is a table of exactly this name. -/
def lists (name : String) : Bool := v.tables.any fun t => t.name == name

/-- Whether no name stands for two tables. -/
def IsOrderly : Prop := v.tables.Pairwise fun t u => Differ t.name u.name

variable {v}

theorem not_hasTable {name : String} : ¬v.HasTable name ↔ ∀ t ∈ v.tables, Differ t.name name := by
  simp only [HasTable, not_exists, not_and, Differ, Bool.not_eq_true]

/-- A name stands for the one table that has it. -/
theorem IsOrderly.table?_eq_some {t : ListedTable} {name : String} (hv : v.IsOrderly) (ht : t ∈ v.tables)
    (hname : Keyword.same t.name name = true) : v.table? name = some t := by
  rcases hfind : v.table? name with _ | u
  · exact absurd hname (List.find?_eq_none.1 hfind t ht)
  · have hu : Keyword.same u.name name = true := by simpa using List.find?_some hfind
    by_contra hne
    have hdiffer : Differ u.name t.name := hv.forall (List.mem_of_find?_eq_some hfind) ht
      fun he => hne (congrArg some he)
    exact Keyword.not_differ.2 (Keyword.same_trans hu (Keyword.same_comm _ _ ▸ hname)) hdiffer

theorem not_hasIndex {name : String} : ¬v.HasIndex name ↔ ∀ i ∈ v.indexes, Differ i.name name := by
  simp only [HasIndex, not_exists, not_and, Differ, Bool.not_eq_true]

end Inventory

namespace SchemaStatement

/-- **Whether what a statement creates is there already**, so that its guard
applies. -/
def IsThere : SchemaStatement → Inventory → Prop
  | table t, v => v.HasTable t.name
  | index i, v => v.HasTable i.table ∧ ¬v.HasTable i.name ∧ v.HasIndex i.name

/-- **Whether there is room for what a statement creates**: nothing has its name. -/
def IsFree : SchemaStatement → Inventory → Prop
  | table t, v => ¬v.HasTable t.name ∧ ¬v.HasIndex t.name
  | index i, v => v.HasTable i.table ∧ ¬v.HasTable i.name ∧ ¬v.HasIndex i.name

/-- Whether what a statement speaks of is there by the very names it uses. -/
def IsFounded : SchemaStatement → Inventory → Prop
  | table _, _ => True
  | index i, v => v.IsOrderly ∧ ∃ t ∈ v.tables, t.name = i.table ∧ i.column ∈ t.columns

/-- **What a statement adds**: a table without rows, or an index, of its name. -/
def Adds : SchemaStatement → Inventory → Inventory → Prop
  | table t, v, v' => ∃ columns, v' = { v with tables := v.tables ++ [⟨t.name, columns, 0⟩] }
  | index i, v, v' => ∃ table columns, v' = { v with indexes := v.indexes ++ [⟨i.name, table, columns⟩] }

/-- What it adds if its names are names and are those of what is there. -/
def AddsAsWritten : SchemaStatement → Inventory → Inventory → Prop
  | table t, v, v' => t.columnNames.Pairwise Differ ∧
      v' = { v with tables := v.tables ++ [⟨t.name, t.columnNames, 0⟩] }
  | index i, v, v' => v' = { v with indexes := v.indexes ++ [⟨i.name, i.table, [i.column]⟩] }

end SchemaStatement

/-! ## Engines -/

/-- The statement that counts all rows of a table. -/
theorem Statement.count_empty {table : String} :
    count table .empty = ⟨"SELECT COUNT(*) FROM " ++ table, []⟩ :=
  congrArg (Sql.mk · []) String.append_empty

namespace Engine

variable {δ : Type}

/-- **What is expected of an engine**, and said of it by its manual, where its
databases hold tables and indexes, and nothing is amiss around it. A name stands
for every name that differs from it in the case of letters only. -/
structure Speaks (e : Engine δ) (w : Dialect) (list : δ → Inventory) : Prop where
  start_eq : ∀ c, e.start c = .ok ()
  commit_eq : ∀ c, e.commit c = (.ok (), c)
  /-- A name that is none is a syntax error, as is a group without columns. -/
  refused : ∀ {s : SchemaStatement} {c c'}, s.IsSpelled → w.Decides s → w.Refuses s ∨ ¬s.IsWhole →
    e.script s.sql c ≠ (.ok (), c')
  /-- Where the guard applies, a statement that can be read at all does nothing. -/
  skipped : ∀ {s : SchemaStatement} {b b' c}, s.IsSpelled → e.script s.sql b = (.ok (), b') →
    s.ifNotExists = true → s.IsThere (list c.database) → e.script s.sql c = (.ok (), c)
  /-- Where there is room, what can be defined is created. -/
  accepted : ∀ {s : SchemaStatement} {c}, s.IsSpelled → s.IsWhole → w.Takes s → w.fits s → s.IsDefinable →
    s.IsFree (list c.database) → s.IsFounded (list c.database) → ∃ c', e.script s.sql c = (.ok (), c')
  /-- What can be created has a name, and is there afterwards. -/
  effect : ∀ {s : SchemaStatement} {c c'}, s.IsSpelled → e.script s.sql c = (.ok (), c') →
    ¬w.refuses .created s.name ∧
      (s.ifNotExists = true ∧ s.IsThere (list c.database) ∧ c' = c ∨
        s.IsFree (list c.database) ∧ s.Adds (list c.database) (list c'.database))
  /-- It is what was written. -/
  effect_asWritten : ∀ {s : SchemaStatement} {c c'}, s.IsSpelled → w.Takes s → s.IsFree (list c.database) →
    s.IsFounded (list c.database) → e.script s.sql c = (.ok (), c') →
    s.AddsAsWritten (list c.database) (list c'.database)
  /-- A table is looked for by its very name. -/
  hasTable_eq : ∀ {name} c, ¬w.refuses .created name →
    e.hasTable name c = (.ok ((list c.database).lists name), c)
  /-- A query changes nothing, and counts as many rows as fit a number. -/
  counts : ∀ {name} {c} {t : ListedTable}, Identifier.isValid name = true → ¬w.refuses .created name →
    (list c.database).table? name = some t →
    ∃ labels n, e.query ⟨"SELECT COUNT(*) FROM " ++ name, []⟩ c = (.ok ⟨labels, [[.integer n]]⟩, c) ∧
      ((t.rows : Int) ≤ Int64.maxValue.toInt → n.toInt = t.rows)

namespace Speaks

variable {e : Engine δ} {w : Dialect} {list : δ → Inventory} {s : SchemaStatement} {c c' : Connection δ}

/-- What was created can be read, and has the names of the dialect. -/
theorem takes_of_script (he : e.Speaks w list) (hs : s.IsSpelled) (hw : w.Decides s)
    (h : e.script s.sql c = (.ok (), c')) : w.Takes s ∧ s.IsWhole := by
  have hr : ¬(w.Refuses s ∨ ¬s.IsWhole) := fun hr => he.refused hs hw hr h
  rw [not_or, not_not] at hr
  exact ⟨hw.takes_of_not_refuses hr.1, hr.2⟩

end Speaks

end Engine

end TypedTables

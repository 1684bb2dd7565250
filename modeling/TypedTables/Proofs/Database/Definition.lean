import TypedTables.Database.Catalog
import TypedTables.Database.Definition
import TypedTables.Proofs.Database.Dialect
import TypedTables.Proofs.Except
import TypedTables.Proofs.Schema.Table
/-!
# TypedTables — building tables

The embedded engine makes some checks before it creates a table or an index. All
those on a definition pass where its clauses go together; the others are about
what is there already. What is built has the name and the columns of its
definition, and no rows.
-/

namespace TypedTables

open Keyword (Differ)

/-- A table, as an inventory lists it. -/
def Table.listed (t : Table) : ListedTable := ⟨t.name, t.columns.map (·.name), t.rows.length⟩

/-- **Whether a table keeps to the limits** of columns, as do its groups. -/
structure WrittenTable.IsNarrow (t : WrittenTable) : Prop where
  columns_le : t.columns.length ≤ TableDefinition.columnLimit
  group_le : ∀ group ∈ t.uniqueGroups, group.length ≤ TableDefinition.columnLimit

namespace TableDefinition

variable {t : WrittenTable} {d : TableDefinition} {name text : String} {serial : Nat}

/-! ## What a described definition consists of -/

theorem names_of_describes (h : WrittenClause.Describes t.clauses d) :
    d.columns.map (·.name) = t.columnNames := by
  have hcolumns : List.Forall₂ WrittenColumn.HasColumn t.columns d.columns := h.columns
  unfold WrittenTable.columnNames
  generalize t.columns = fs, d.columns = cs at hcolumns ⊢
  induction hcolumns with
  | nil => rfl
  | cons hc _ ih =>
    obtain ⟨value, rfl⟩ := hc
    rw [List.map_cons, List.map_cons, ih]
    rfl

/-- The keys among the columns are those that are written as keys. -/
theorem keys_of_describes (h : WrittenClause.Describes t.clauses d) :
    (d.columns.filter (·.isKey)).map (·.name) = (t.columns.filter (·.isPrimaryKey)).map (·.name) := by
  have hcolumns : List.Forall₂ WrittenColumn.HasColumn t.columns d.columns := h.columns
  generalize t.columns = fs, d.columns = cs at hcolumns ⊢
  induction hcolumns with
  | nil => rfl
  | @cons f c fs cs hc _ ih =>
    obtain ⟨value, rfl⟩ := hc
    rw [List.filter_cons, List.filter_cons]
    have hkey : (f.definition value).isKey = f.isPrimaryKey := rfl
    rw [hkey]
    rcases f.isPrimaryKey with _ | _
    · exact ih
    · simp only [if_true, List.map_cons, ih]
      rfl

theorem mem_columns_of_describes (h : WrittenClause.Describes t.clauses d) {c : ColumnDefinition}
    (hc : c ∈ d.columns) : ∃ f ∈ t.columns, f.HasColumn c := by
  have hcolumns : List.Forall₂ WrittenColumn.HasColumn t.columns d.columns := h.columns
  generalize t.columns = fs, d.columns = cs at hcolumns hc ⊢
  induction hcolumns with
  | nil => nomatch hc
  | @cons f c' fs cs hfc _ ih =>
    rcases List.mem_cons.1 hc with rfl | hc
    · exact ⟨f, List.mem_cons_self, hfc⟩
    · obtain ⟨g, hg, hgc⟩ := ih hc
      exact ⟨g, List.mem_cons_of_mem f hg, hgc⟩

/-! ## What the engine checks -/

theorem hasRepeatedColumn_eq_false {cs : List ColumnDefinition} :
    hasRepeatedColumn cs = false ↔ (cs.map (·.name)).Pairwise Differ := by
  induction cs with
  | nil => exact ⟨fun _ => .nil, fun _ => rfl⟩
  | cons c cs ih =>
    rw [hasRepeatedColumn, Bool.or_eq_false_iff, ih, List.map_cons, List.pairwise_cons, List.any_eq_false]
    refine and_congr_left fun _ => ⟨fun h n hn => ?_, fun h other hother => ?_⟩
    · obtain ⟨other, hother, rfl⟩ := List.mem_map.1 hn
      exact Differ.symm (Bool.eq_false_iff.2 (h other hother))
    · exact Bool.eq_false_iff.1 (Differ.symm (h _ (List.mem_map_of_mem hother)))

theorem primaryKeys_of_describes (h : WrittenClause.Describes t.clauses d) :
    d.primaryKeys = (t.columns.filter (·.isPrimaryKey)).map fun c => [c.name] := by
  have hkeys := congrArg (List.map fun name => [name]) (keys_of_describes h)
  rw [List.map_map, List.map_map] at hkeys
  rw [primaryKeys, h.keys, List.append_nil]
  exact hkeys

theorem hasColumn_of_mem (h : WrittenClause.Describes t.clauses d) {name : String} (hn : name ∈ t.columnNames) :
    d.hasColumn name = true := by
  rw [← names_of_describes h] at hn
  obtain ⟨c, hc, rfl⟩ := List.mem_map.1 hn
  exact List.any_eq_true.2 ⟨c, hc, Keyword.same_refl c.name⟩

/-- Keys and groups are about columns that there are. -/
theorem unknownColumn?_of_describes (ht : t.IsDefinable) (h : WrittenClause.Describes t.clauses d) :
    d.unknownColumn? = none := by
  unfold unknownColumn?
  rw [List.find?_eq_none]
  intro name hname
  have hmem : name ∈ t.columnNames := by
    simp only [h.keys, h.foreignKeys, h.uniqueGroups, List.flatten_nil, List.nil_append, List.mem_append,
      List.mem_map, List.mem_flatten] at hname
    rcases hname with ⟨fk, hfk, rfl⟩ | ⟨group, hgroup, hname⟩
    · exact ht.localColumn_mem fk hfk
    · exact ht.uniqueColumn_mem group hgroup name hname
  rw [hasColumn_of_mem h hmem]
  decide

/-- A column that numbers its rows is the key, and its type is an integer. -/
theorem numberColumn?_of_describes (ht : t.IsDefinable) (h : WrittenClause.Describes t.clauses d)
    (hauto : d.columns.any (·.isAutoIncrement) = true) : d.numberColumn?.isSome = true := by
  obtain ⟨c, hc, hauto⟩ := List.any_eq_true.1 hauto
  obtain ⟨f, hf, value, rfl⟩ := mem_columns_of_describes h hc
  obtain ⟨hprimary, hauto⟩ := Bool.and_eq_true_iff.1 hauto
  have hkeys : t.columns.filter (·.isPrimaryKey) = [f] := by
    have hmem : f ∈ t.columns.filter (·.isPrimaryKey) := List.mem_filter.2 ⟨hf, hprimary⟩
    obtain ⟨k, hk⟩ := List.length_eq_one_iff.1
      (Nat.le_antisymm ht.key_unique (List.length_pos_of_mem hmem))
    rw [hk] at hmem ⊢
    rw [List.mem_singleton.1 hmem]
  have htype : Keyword.same f.affinity.sql "integer" = true := by
    rw [(ht.isKey_of_autoIncrement f hf hauto).2]
    decide +kernel
  unfold numberColumn?
  rw [primaryKeys_of_describes h, hkeys]
  exact List.find?_isSome.2 ⟨f.definition value, hc, Bool.and_eq_true_iff.2 ⟨Keyword.same_refl f.name, htype⟩⟩

theorem isTooWide_of_describes (ht : t.IsNarrow) (h : WrittenClause.Describes t.clauses d) :
    d.isTooWide = false := by
  have hlength : d.columns.length = t.columns.length := (List.Forall₂.length_eq h.columns).symm
  unfold isTooWide
  rw [h.keys, h.uniqueGroups, hlength, Bool.or_eq_false_iff, List.nil_append, List.any_eq_false]
  refine ⟨decide_eq_false (Nat.not_lt.2 ht.columns_le), fun group hgroup => ?_⟩
  simpa using ht.group_le group hgroup

/-- **A table whose clauses go together is built.** -/
theorem exists_build (ht : t.IsDefinable) (hsize : t.IsNarrow) (h : WrittenClause.Describes t.clauses d)
    (name text : String) (serial : Nat) : ∃ u, d.build name text serial = .ok u := by
  have hwide := isTooWide_of_describes hsize h
  have hrepeated : hasRepeatedColumn d.columns = false := by
    rw [hasRepeatedColumn_eq_false, names_of_describes h]
    exact ht.columns_differ
  have hkeys : ¬1 < d.primaryKeys.length := by
    rw [primaryKeys_of_describes h, List.length_map]
    exact Nat.not_lt.2 ht.key_unique
  have hunknown := unknownColumn?_of_describes ht h
  have hauto : (d.columns.any (·.isAutoIncrement) && d.numberColumn?.isNone) = false := by
    rcases ha : d.columns.any (·.isAutoIncrement) with _ | _
    · rfl
    · rw [Option.isNone_eq_false_iff.2 (numberColumn?_of_describes ht h ha)]
      rfl
  simp only [build, hwide, hrepeated, hkeys, hunknown, hauto, Bool.false_eq_true, if_false]
  exact ⟨_, rfl⟩

/-- **What is built** has the name and the columns of its definition, which the
engine tells apart, and no rows. -/
theorem of_build {u : Table} (h : d.build name text serial = .ok u) :
    u.listed = ⟨name, d.columns.map (·.name), 0⟩ ∧ (d.columns.map (·.name)).Pairwise Differ := by
  unfold build at h
  -- each check that is made on the way has passed
  rcases hwide : d.isTooWide with _ | _ <;> rw [hwide] at h
  case true => exact absurd h throw_bind_ne_ok
  rcases hrepeated : hasRepeatedColumn d.columns with _ | _ <;> rw [hrepeated] at h
  case true => exact absurd h throw_bind_ne_ok
  simp only [Bool.false_eq_true, if_false] at h
  split at h
  case isTrue => exact absurd h throw_bind_ne_ok
  split at h
  case h_1 => exact absurd h throw_bind_ne_ok
  split at h
  case isTrue => exact absurd h throw_bind_ne_ok
  obtain rfl := pure_eq_ok.1 h
  refine ⟨?_, hasRepeatedColumn_eq_false.1 hrepeated⟩
  rw [Table.listed, ListedTable.mk.injEq]
  exact ⟨rfl, List.ext_getElem (by simp) fun i hi hj => by simp, rfl⟩

end TableDefinition

namespace Database

variable {d d' : Database} {definition : TableDefinition} {name text : String} {guard : Bool}

/-! ## One table more -/

theorem table?_eq_none : d.table? name = none ↔ ∀ t ∈ d.tables, Differ t.name name := by
  unfold table?
  rw [List.find?_eq_none]
  exact forall₂_congr fun t _ => Bool.eq_false_iff.symm

/-- **What creating a table can do**: nothing, where it is there already and
that is allowed, or add it behind the others. The engine's own table may come
after it. -/
theorem createTable_cases (h : d.createTable name guard definition text = .ok d') :
    isInternal name = false ∧
      ((d.table? name).isSome = true ∧ guard = true ∧ d' = d ∨
        d.table? name = none ∧ d.index? name = none ∧
          ∃ t, definition.build name text d.nextSerial = .ok t ∧
            d' = if t.isAutoIncrement then withSequence { d with tables := d.tables ++ [t] }
              else { d with tables := d.tables ++ [t] }) := by
  unfold createTable at h
  rcases hinternal : isInternal name with _ | _ <;> rw [hinternal] at h
  case true => exact absurd h throw_bind_ne_ok
  refine ⟨rfl, ?_⟩
  rcases htable : d.table? name with _ | u
  case some =>
    simp only [htable, Option.isSome_some, if_true] at h
    rcases guard with _ | _
    · exact absurd h throw_bind_ne_ok
    · exact .inl ⟨rfl, rfl, (pure_eq_ok.1 h).symm⟩
  case none =>
    rcases hindex : d.index? name with _ | i <;>
      simp only [htable, hindex, Option.isSome_none, Option.isSome_some, Bool.false_eq_true, if_false, if_true] at h
    case some => exact absurd h throw_bind_ne_ok
    case none =>
      obtain ⟨t, ht, hd'⟩ := bind_eq_ok.1 h
      exact .inr ⟨rfl, rfl, t, ht, (pure_eq_ok.1 hd').symm⟩

/-- Where nothing of its name is there, a table is added. -/
theorem createTable_of_free (hinternal : isInternal name = false) (htable : d.table? name = none)
    (hindex : d.index? name = none) {t : Table} (ht : definition.build name text d.nextSerial = .ok t) :
    d.createTable name guard definition text =
      .ok (if t.isAutoIncrement then withSequence { d with tables := d.tables ++ [t] }
        else { d with tables := d.tables ++ [t] }) := by
  simp only [createTable, hinternal, htable, hindex, ht, Option.isSome_none, Bool.false_eq_true, if_false]
  rfl

/-- The engine's own table is put behind all others, if it is not there. -/
theorem tables_withSequence (d : Database) :
    d.withSequence.tables = d.tables ∨
      d.table? sequenceTable.name = none ∧ ∃ t, t.name = sequenceTable.name ∧
        d.withSequence.tables = d.tables ++ [t] := by
  unfold withSequence
  rcases h : d.table? sequenceTable.name with _ | t
  · exact .inr ⟨rfl, { sequenceTable with serial := d.nextSerial }, rfl, by simp⟩
  · exact .inl (by simp)

theorem indexes_withSequence (d : Database) : d.withSequence.indexes = d.indexes := by
  unfold withSequence
  split <;> rfl

/-- Whether a name is kept for the engine does not depend on the case of its letters. -/
theorem isInternal_eq {a b : String} (h : Keyword.same a b = true) : isInternal a = isInternal b := by
  rw [isInternal, Keyword.same_iff.1 h, isInternal]

/-- The names of the catalog are kept from tables. -/
theorem isSchemaName_eq_false (h : isInternal name = false) : isSchemaName name = false := by
  unfold isSchemaName
  rw [List.any_eq_false]
  intro schemaName hmem hsame
  rw [isInternal_eq hsame] at h
  have hall : ["sqlite_master", "sqlite_schema"].all isInternal = true := by decide +kernel
  rw [List.all_eq_true.1 hall schemaName hmem] at h
  nomatch h

/-- A query by a name that is not the engine's reads the table of that name. -/
theorem readable_of_table? (hinternal : isInternal name = false) {t : Table} (ht : d.table? name = some t) :
    d.readable name = .ok t := by
  unfold readable
  rw [isSchemaName_eq_false hinternal, if_neg Bool.false_ne_true, table, ht]

/-! ## One index more -/

/-- **What creating an index can do**: nothing, where it is there already and
that is allowed, or add it behind the others. Its table is there and not one of
the engine's, and no table has its name. -/
theorem createIndex_cases {table : String} {columns : List String}
    (h : d.createIndex name guard table columns text = .ok d') :
    ∃ t, d.table? table = some t ∧ isInternal t.name = false ∧ isInternal name = false ∧ d.table? name = none ∧
      ((d.index? name).isSome = true ∧ guard = true ∧ d' = d ∨
        d.index? name = none ∧
          d' = { d with indexes := d.indexes ++ [⟨name, t.name, columns, d.nextSerial, text⟩] }) := by
  unfold createIndex at h
  obtain ⟨t, ht, h⟩ := bind_eq_ok.1 h
  have htable : d.table? table = some t := by
    rw [Database.table] at ht
    split at ht
    case h_1 u hu => rw [hu, Except.ok.inj ht]
    case h_2 => cases ht
  refine ⟨t, htable, ?_⟩
  -- each check that is made on the way has passed
  rcases hinternal : isInternal t.name with _ | _ <;> rw [hinternal] at h
  case true => exact absurd h throw_bind_ne_ok
  rcases hkept : isInternal name with _ | _ <;> rw [hkept] at h
  case true => exact absurd h throw_bind_ne_ok
  rcases hname : d.table? name with _ | u <;> rw [hname] at h
  case some => exact absurd h throw_bind_ne_ok
  refine ⟨rfl, rfl, rfl, ?_⟩
  rcases hindex : d.index? name with _ | i <;>
    simp only [hindex, Option.isSome_none, Option.isSome_some, Bool.false_eq_true, if_false, if_true] at h
  case some =>
    rcases guard with _ | _
    · exact absurd h throw_bind_ne_ok
    · exact .inl ⟨rfl, rfl, (pure_eq_ok.1 h).symm⟩
  case none =>
    split at h
    · exact absurd h throw_bind_ne_ok
    · exact .inr ⟨rfl, (pure_eq_ok.1 h).symm⟩

/-- **An index of a name that no table has is created**, if its column is there.
Where there is one of this name, it is left alone or in the way. -/
theorem createIndex_eq_ok_iff {table column : String} {t : Table} (ht : d.table? table = some t)
    (htable : isInternal t.name = false) (hinternal : isInternal name = false)
    (hfree : d.table? name = none) (hcolumn : (t.columnIndex? column).isSome = true) :
    d.createIndex name guard table [column] text = .ok d' ↔
      d.index? name = none ∧
        d' = { d with indexes := d.indexes ++ [⟨name, t.name, [column], d.nextSerial, text⟩] } ∨
      (d.index? name).isSome = true ∧ guard = true ∧ d' = d := by
  have hfind : d.table table = .ok t := by
    rw [Database.table, ht]
  have hcolumns : [column].find? (fun c => (t.columnIndex? c).isNone) = none := by
    obtain ⟨i, hi⟩ := Option.isSome_iff_exists.1 hcolumn
    simp [hi]
  -- of the checks only the one for an index of this name is left
  have hcreate : d.createIndex name guard table [column] text =
      if (d.index? name).isSome then if guard then .ok d else .error (.nameTaken name)
      else .ok { d with indexes := d.indexes ++ [⟨name, t.name, [column], d.nextSerial, text⟩] } := by
    unfold createIndex
    simp only [hfind, bind, Except.bind, htable, hinternal, hfree, hcolumns, Option.isSome_none,
      Bool.false_eq_true, if_false]
    rcases d.index? name with _ | i
    · rfl
    · cases guard <;> rfl
  rw [hcreate]
  rcases d.index? name with _ | i
  · simp [eq_comm]
  · cases guard <;> simp [eq_comm]

end Database

end TypedTables

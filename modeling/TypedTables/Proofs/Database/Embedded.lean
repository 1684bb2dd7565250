import TypedTables.Proofs.Database.Count
import TypedTables.Proofs.Database.Definition
import TypedTables.Proofs.Schema.Statement
/-!
# TypedTables — the embedded engine creates schemas

The embedded engine speaks a dialect: it does with the statements of a schema
what is expected of an engine. What it lists are its tables, those that it keeps
for itself apart, and its indexes.
-/

namespace TypedTables

open Keyword (Differ)
open SqlReader (IsTermName)

/-! ## The dialect -/

/-- The words that are names for the embedded engine. -/
def Dialect.IsName : Place → String → Prop
  | .created, w => Keyword.isReserved w = false ∧ Keyword.same w "if" = false ∧ Database.isInternal w = false
  | .named, w => Keyword.isReserved w = false
  | .operand, w => IsTermName w

/-- **The dialect of the embedded engine.** It reads on where a column is called
like the keyword for the name of a constraint, and then defines something else. -/
def Dialect.embedded : Dialect where
  takes := Dialect.IsName
  refuses p w := ¬IsName p w ∧ (p = .named → Keyword.same w "constraint" = false)
  fits
    | .table t => t.IsNarrow
    | .index _ => True

namespace Dialect

instance (p : Place) (w : String) : Decidable (IsName p w) :=
  match p with
  | .created => inferInstanceAs (Decidable (_ ∧ _ ∧ _))
  | .named => inferInstanceAs (Decidable (_ = _))
  | .operand => inferInstanceAs (Decidable (_ ∧ _))

instance (s : SchemaStatement) : Decidable (embedded.Takes s) :=
  inferInstanceAs (Decidable (∀ x ∈ s.words, IsName x.1 x.2))

instance (t : WrittenTable) : Decidable t.IsNarrow :=
  decidable_of_iff (t.columns.length ≤ TableDefinition.columnLimit ∧
      ∀ group ∈ t.uniqueGroups, group.length ≤ TableDefinition.columnLimit)
    ⟨fun h => ⟨h.1, h.2⟩, fun h => ⟨h.1, h.2⟩⟩

instance (s : SchemaStatement) : Decidable (embedded.fits s) :=
  match s with
  | .table t => inferInstanceAs (Decidable t.IsNarrow)
  | .index _ => inferInstanceAs (Decidable True)

/-- Whether the engine has a say on a statement can be checked. -/
instance (s : SchemaStatement) : Decidable (embedded.Decides s) :=
  decidable_of_iff ((∀ x ∈ s.words, IsName x.1 x.2 ∨ ¬IsName x.1 x.2 ∧
      (x.1 = .named → Keyword.same x.2 "constraint" = false)) ∧ embedded.fits s)
    ⟨fun h => ⟨h.1, h.2⟩, fun h => ⟨h.1, h.2⟩⟩

end Dialect

theorem Dialect.isName_of_not_refuses {w : String} (h : ¬embedded.refuses .created w) : IsName .created w := by
  by_contra hn
  exact h ⟨hn, nofun⟩

/-! ## The inventory -/

namespace Database

variable {d d' : Database} {name : String}

/-- What there is in a database, but for what the engine keeps for itself. -/
def inventory (d : Database) : Inventory where
  tables := (d.tables.filter fun t => !isInternal t.name).map Table.listed
  indexes := d.indexes.map fun i => ⟨i.name, i.table, i.columns⟩

theorem mem_inventory_tables {l : ListedTable} :
    l ∈ d.inventory.tables ↔ ∃ t ∈ d.tables, isInternal t.name = false ∧ t.listed = l := by
  simp [inventory, and_assoc]

/-- A name that is not kept for the engine stands for the same table in both. -/
theorem table?_inventory (h : isInternal name = false) :
    d.inventory.table? name = (d.table? name).map Table.listed := by
  rw [Inventory.table?, inventory, List.find?_map, List.find?_filter, table?]
  congr 2
  funext t
  show decide ((!isInternal t.name) = true ∧ Keyword.same t.name name = true) = Keyword.same t.name name
  rcases hsame : Keyword.same t.name name with _ | _
  · simp
  · simp [isInternal_eq hsame, h]

theorem hasTable_inventory_iff (h : isInternal name = false) :
    d.inventory.HasTable name ↔ (d.table? name).isSome = true := by
  have hfound : (d.inventory.table? name).isSome = true ↔ d.inventory.HasTable name := List.find?_isSome
  rw [← hfound, table?_inventory h, Option.isSome_map]

/-- Whatever a name is, the inventory has a table of it only if the database has. -/
theorem not_hasTable_inventory (h : d.table? name = none) : ¬d.inventory.HasTable name := by
  rw [Inventory.not_hasTable]
  intro l hl
  obtain ⟨t, ht, -, rfl⟩ := mem_inventory_tables.1 hl
  exact table?_eq_none.1 h t ht

theorem hasIndex_inventory_iff : d.inventory.HasIndex name ↔ (d.index? name).isSome = true := by
  rw [index?, List.find?_isSome]
  simp [Inventory.HasIndex, inventory]

theorem lists_inventory (h : isInternal name = false) : d.inventory.lists name = d.hasTable name := by
  have hlisted : d.inventory.lists name = (d.tables.filter fun t => !isInternal t.name).any fun t => t.name == name := by
    rw [Inventory.lists, inventory, List.any_map]
    rfl
  rw [hlisted, List.any_filter, hasTable]
  congr 1
  funext t
  rcases hname : t.name == name with _ | _
  · exact Bool.and_false _
  · rw [beq_iff_eq.1 hname, h]
    rfl

/-- A new table is listed, and the engine's own is not. -/
theorem inventory_add {t : Table} (h : isInternal t.name = false) :
    inventory { d with tables := d.tables ++ [t] } =
      { d.inventory with tables := d.inventory.tables ++ [t.listed] } := by
  simp [inventory, List.filter_append, h]

theorem inventory_withSequence (d : Database) : d.withSequence.inventory = d.inventory := by
  have htables : (d.withSequence.tables.filter fun t => !isInternal t.name) =
      d.tables.filter fun t => !isInternal t.name := by
    rcases tables_withSequence d with h | ⟨-, t, ht, h⟩
    · rw [h]
    · have hkept : isInternal t.name = true := by
        rw [ht]
        decide +kernel
      rw [h, List.filter_append, List.filter_cons_of_neg (by simp [hkept]), List.filter_nil, List.append_nil]
  rw [inventory, htables, indexes_withSequence, inventory]

end Database

/-! ## Tables -/

namespace Dialect

variable {t : WrittenTable} {p : WrittenClause}

theorem isBare_clause_iff : p.IsBare ↔ p.unique? ≠ some [] ∧ ∀ x ∈ p.words, IsName x.1 x.2 := by
  cases p with
  | column c => simp [WrittenClause.IsBare, WrittenClause.unique?, WrittenClause.words, IsName]
  | foreignKey fk => simp [WrittenClause.IsBare, WrittenClause.unique?, WrittenClause.words, IsName]
  | unique columns => simp [WrittenClause.IsBare, WrittenClause.unique?, WrittenClause.words, IsName]

/-- **A table can be read and has a name of its own** just if its names are names
and its groups have columns. -/
theorem isBare_table_iff : t.IsBare ∧ Database.isInternal t.name = false ↔
    [] ∉ t.uniqueGroups ∧ embedded.Takes (.table t) := by
  have hclauses : (∀ p ∈ t.clauses, p.IsBare) ↔
      [] ∉ t.uniqueGroups ∧ ∀ p ∈ t.clauses, ∀ x ∈ p.words, IsName x.1 x.2 := by
    simp only [isBare_clause_iff, forall_and]
    refine and_congr_left fun _ => ?_
    rw [WrittenTable.uniqueGroups, List.mem_filterMap]
    simp
  have htakes : embedded.Takes (.table t) ↔
      IsName .created t.name ∧ ∀ p ∈ t.clauses, ∀ x ∈ p.words, IsName x.1 x.2 := by
    simp only [Takes, SchemaStatement.words, List.forall_mem_cons, List.mem_flatMap, embedded,
      forall_exists_index, and_imp]
    refine and_congr_right fun _ => ⟨fun h p hp x hx => h x p hp hx, fun h x p hp hx => h p hp x hx⟩
  rw [htakes]
  constructor
  · rintro ⟨⟨⟨hfree, hif⟩, hbare⟩, hinternal⟩
    obtain ⟨hgroups, hnames⟩ := hclauses.1 hbare
    exact ⟨hgroups, ⟨hfree, hif, hinternal⟩, hnames⟩
  · rintro ⟨hgroups, ⟨hfree, hif, hinternal⟩, hnames⟩
    exact ⟨⟨⟨hfree, hif⟩, hclauses.2 ⟨hgroups, hnames⟩⟩, hinternal⟩

/-- The engine has a say on a table unless it reads on in one of its columns. -/
theorem isUnmistaken_of_words
    (h : ∀ x ∈ (SchemaStatement.table t).words, embedded.takes x.1 x.2 ∨ embedded.refuses x.1 x.2) :
    ∀ p ∈ t.clauses, p.IsUnmistaken := by
  intro p hp
  cases p with
  | foreignKey fk => trivial
  | unique columns => trivial
  | column c =>
    have hmem : (Place.named, c.name) ∈ (SchemaStatement.table t).words :=
      List.mem_cons_of_mem _ (List.mem_flatMap.2 ⟨_, hp, List.mem_singleton_self _⟩)
    rcases h _ hmem with htakes | hrefuses
    · have hfree : Keyword.isReserved c.name = false := htakes
      rw [WrittenClause.IsUnmistaken, Bool.eq_false_iff]
      intro hsame
      rw [WrittenClause.isReserved_of_same hsame (by decide +kernel)] at hfree
      cases hfree
    · exact hrefuses.2 rfl

end Dialect

namespace WrittenTable

variable {t : WrittenTable} {c c' : Connection Database} {d d' : Database} {definition : TableDefinition}
  {text : String}

/-- **What the script for a table does** is to create it with some definition. -/
def IsRunAs (t : WrittenTable) (definition : TableDefinition) (text : String) : Prop :=
  ∀ c c' : Connection Database, Engine.embedded.script t.sql c = (.ok (), c') ↔
    ∃ d, c.database.createTable t.name t.ifNotExists definition text = .ok d ∧ c' = { c with database := d }

/-- A script that succeeds was read. -/
theorem exists_isRunAs (ht : t.IsSpelled) (h : Engine.embedded.script t.sql c = (.ok (), c')) :
    (Keyword.isReserved t.name = false ∧ Keyword.same t.name "if" = false) ∧
      ∃ definition text, t.IsRunAs definition text := by
  rw [Engine.embedded_script] at h
  rcases hread : Instruction.listOfText? t.sql with _ | instructions
  · exact absurd h (Engine.runScript_ne_ok hread)
  · obtain ⟨hfree, definition, text, rfl⟩ := of_listOfText?_sql ht hread
    refine ⟨hfree, definition, text, fun c c' => ?_⟩
    rw [Engine.embedded_script]
    exact Engine.runScript_eq_ok hread rfl

theorem isBare_of_runScript (ht : t.IsSpelled) (hnames : ∀ p ∈ t.clauses, p.IsUnmistaken)
    (hrun : Engine.embedded.script t.sql c = (.ok (), c')) : t.IsBare ∧ t.endsText = false := by
  rw [Engine.embedded_script] at hrun
  by_contra hn
  exact Engine.runScript_ne_ok ((listOfText?_sql ht hnames).2 hn) hrun

/-- A script that can be read creates the table that was written. -/
theorem exists_isRunAs_describes (ht : t.IsSpelled) (hnames : ∀ p ∈ t.clauses, p.IsUnmistaken)
    (hbare : t.IsBare) (hwhole : t.endsText = false) : ∃ definition text,
      t.IsRunAs definition text ∧ WrittenClause.Describes t.clauses definition := by
  obtain ⟨definition, text, hread, hdescribes⟩ := (listOfText?_sql ht hnames).1 ⟨hbare, hwhole⟩
  refine ⟨definition, text, fun c c' => ?_, hdescribes⟩
  rw [Engine.embedded_script]
  exact Engine.runScript_eq_ok hread rfl

/-- **What creating a table makes of the inventory.** -/
theorem inventory_of_createTable (h : d.createTable t.name t.ifNotExists definition text = .ok d') :
    Database.isInternal t.name = false ∧
      (t.ifNotExists = true ∧ d.inventory.HasTable t.name ∧ d' = d ∨
        (¬d.inventory.HasTable t.name ∧ ¬d.inventory.HasIndex t.name) ∧
          (definition.columns.map (·.name)).Pairwise Differ ∧
          d'.inventory = { d.inventory with
            tables := d.inventory.tables ++ [⟨t.name, definition.columns.map (·.name), 0⟩] }) := by
  obtain ⟨hinternal, ⟨hthere, hguard, rfl⟩ | ⟨htable, hindex, u, hu, rfl⟩⟩ := Database.createTable_cases h
  · exact ⟨hinternal, .inl ⟨hguard, (Database.hasTable_inventory_iff hinternal).2 hthere, rfl⟩⟩
  · obtain ⟨hlisted, hdiffer⟩ := TableDefinition.of_build hu
    have hname : u.name = t.name := congrArg ListedTable.name hlisted
    have hadd : Database.inventory { d with tables := d.tables ++ [u] } =
        { d.inventory with tables := d.inventory.tables ++ [u.listed] } :=
      Database.inventory_add (hname ▸ hinternal)
    refine ⟨hinternal, .inr ⟨⟨Database.not_hasTable_inventory htable, ?_⟩, hdiffer, ?_⟩⟩
    · rw [Database.hasIndex_inventory_iff, hindex]
      decide
    · rw [← hlisted, ← hadd]
      split
      · exact Database.inventory_withSequence _
      · rfl

theorem refused (ht : t.IsSpelled) (hw : Dialect.embedded.Decides (.table t))
    (h : Dialect.embedded.Refuses (.table t) ∨ ¬(SchemaStatement.table t).IsWhole) :
    Engine.embedded.script t.sql c ≠ (.ok (), c') := by
  intro hrun
  have hnames := Dialect.isUnmistaken_of_words hw.words
  have hread := isBare_of_runScript ht hnames hrun
  obtain ⟨definition, text, hruns, -⟩ := exists_isRunAs_describes ht hnames hread.1 hread.2
  obtain ⟨d, hok, -⟩ := (hruns _ _).1 hrun
  obtain ⟨hgroups, htakes⟩ := Dialect.isBare_table_iff.1 ⟨hread.1, (inventory_of_createTable hok).1⟩
  rcases h with ⟨x, hx, hrefused⟩ | hwhole
  · exact hrefused.1 (htakes x hx)
  · exact hwhole ⟨hgroups, hread.2⟩

theorem skipped {b b' : Connection Database} (ht : t.IsSpelled) (hrun : Engine.embedded.script t.sql b = (.ok (), b'))
    (hguard : t.ifNotExists = true) (hthere : c.database.inventory.HasTable t.name) :
    Engine.embedded.script t.sql c = (.ok (), c) := by
  obtain ⟨-, definition, text, hruns⟩ := exists_isRunAs ht hrun
  obtain ⟨d, hok, -⟩ := (hruns _ _).1 hrun
  have hinternal := (inventory_of_createTable hok).1
  refine (hruns c c).2 ⟨c.database, ?_, rfl⟩
  have htable := (Database.hasTable_inventory_iff hinternal).1 hthere
  simp only [Database.createTable, hinternal, htable, hguard, Bool.false_eq_true, if_false, if_true]
  rfl

theorem accepted (ht : t.IsSpelled) (hwhole : (SchemaStatement.table t).IsWhole)
    (htakes : Dialect.embedded.Takes (.table t)) (hsize : t.IsNarrow) (hdefinable : t.IsDefinable)
    (hfree : ¬c.database.inventory.HasTable t.name ∧ ¬c.database.inventory.HasIndex t.name) :
    ∃ c', Engine.embedded.script t.sql c = (.ok (), c') := by
  obtain ⟨hbare, hinternal⟩ := Dialect.isBare_table_iff.2 ⟨hwhole.1, htakes⟩
  obtain ⟨definition, text, hruns, hdescribes⟩ :=
    exists_isRunAs_describes ht (Dialect.isUnmistaken_of_words fun x hx => .inl (htakes x hx)) hbare hwhole.2
  obtain ⟨u, hu⟩ := TableDefinition.exists_build hdefinable hsize hdescribes t.name text c.database.nextSerial
  have htable : c.database.table? t.name = none := by
    rw [← Option.not_isSome_iff_eq_none, ← Database.hasTable_inventory_iff hinternal]
    exact hfree.1
  have hindex : c.database.index? t.name = none := by
    rw [← Option.not_isSome_iff_eq_none, ← Database.hasIndex_inventory_iff]
    exact hfree.2
  exact ⟨_, (hruns _ _).2 ⟨_, Database.createTable_of_free hinternal htable hindex hu, rfl⟩⟩

theorem effect (ht : t.IsSpelled) (hrun : Engine.embedded.script t.sql c = (.ok (), c')) :
    Dialect.IsName .created t.name ∧
      (t.ifNotExists = true ∧ c.database.inventory.HasTable t.name ∧ c' = c ∨
        (¬c.database.inventory.HasTable t.name ∧ ¬c.database.inventory.HasIndex t.name) ∧
          ∃ columns, c'.database.inventory = { c.database.inventory with
            tables := c.database.inventory.tables ++ [⟨t.name, columns, 0⟩] }) := by
  obtain ⟨⟨hfree, hif⟩, definition, text, hruns⟩ := exists_isRunAs ht hrun
  obtain ⟨d, hok, rfl⟩ := (hruns _ _).1 hrun
  obtain ⟨hinternal, ⟨hguard, hthere, rfl⟩ | ⟨hnone, -, hadds⟩⟩ := inventory_of_createTable hok
  · exact ⟨⟨hfree, hif, hinternal⟩, .inl ⟨hguard, hthere, rfl⟩⟩
  · exact ⟨⟨hfree, hif, hinternal⟩, .inr ⟨hnone, _, hadds⟩⟩

theorem effect_asWritten (ht : t.IsSpelled) (htakes : Dialect.embedded.Takes (.table t))
    (hfree : ¬c.database.inventory.HasTable t.name) (hrun : Engine.embedded.script t.sql c = (.ok (), c')) :
    (SchemaStatement.table t).AddsAsWritten c.database.inventory c'.database.inventory := by
  have hnames := Dialect.isUnmistaken_of_words fun x hx => .inl (htakes x hx)
  have hread := isBare_of_runScript ht hnames hrun
  obtain ⟨definition, text, hruns, hdescribes⟩ := exists_isRunAs_describes ht hnames hread.1 hread.2
  obtain ⟨d, hok, rfl⟩ := (hruns _ _).1 hrun
  obtain ⟨-, ⟨-, hthere, -⟩ | ⟨-, hdiffer, hadds⟩⟩ := inventory_of_createTable hok
  · exact absurd hthere hfree
  · rw [TableDefinition.names_of_describes hdescribes] at hdiffer hadds
    exact ⟨hdiffer, hadds⟩

end WrittenTable

/-! ## Indexes -/

namespace WrittenIndex

variable {i : WrittenIndex} {c c' : Connection Database} {d d' : Database} {text : String}

theorem isBare_iff : i.IsBare ∧ Database.isInternal i.name = false ↔ Dialect.embedded.Takes (.index i) := by
  have htakes : Dialect.embedded.Takes (.index i) ↔ Dialect.IsName .created i.name ∧
      Dialect.IsName .named i.table ∧ Dialect.IsName .operand i.column := by
    simp [Dialect.Takes, SchemaStatement.words, Dialect.embedded]
  rw [htakes]
  constructor
  · rintro ⟨⟨⟨hfree, hif⟩, htable, hcolumn⟩, hinternal⟩
    exact ⟨⟨hfree, hif, hinternal⟩, htable, hcolumn⟩
  · rintro ⟨⟨hfree, hif, hinternal⟩, htable, hcolumn⟩
    exact ⟨⟨⟨hfree, hif⟩, htable, hcolumn⟩, hinternal⟩

/-- **What the script for an index does** is to create it. -/
def IsRunAs (i : WrittenIndex) (text : String) : Prop :=
  ∀ c c' : Connection Database, Engine.embedded.script i.sql c = (.ok (), c') ↔
    ∃ d, c.database.createIndex i.name i.ifNotExists i.table [i.column] text = .ok d ∧
      c' = { c with database := d }

theorem exists_isRunAs (hi : i.IsSpelled) (hbare : i.IsBare) : ∃ text, i.IsRunAs text := by
  obtain ⟨text, hread⟩ := (listOfText?_sql hi).1 hbare
  refine ⟨text, fun c c' => ?_⟩
  rw [Engine.embedded_script]
  exact Engine.runScript_eq_ok hread rfl

theorem isBare_of_runScript (hi : i.IsSpelled) (hrun : Engine.embedded.script i.sql c = (.ok (), c')) : i.IsBare := by
  rw [Engine.embedded_script] at hrun
  by_contra hn
  exact Engine.runScript_ne_ok ((listOfText?_sql hi).2 hn) hrun

/-- **What creating an index makes of the inventory.** -/
theorem inventory_of_createIndex (h : d.createIndex i.name i.ifNotExists i.table [i.column] text = .ok d') :
    Database.isInternal i.name = false ∧ ¬d.inventory.HasTable i.name ∧
      ∃ t, d.inventory.table? i.table = some t ∧
        (i.ifNotExists = true ∧ d.inventory.HasIndex i.name ∧ d' = d ∨
          ¬d.inventory.HasIndex i.name ∧
            d'.inventory = { d.inventory with
              indexes := d.inventory.indexes ++ [⟨i.name, t.name, [i.column]⟩] }) := by
  obtain ⟨t, ht, hkept, hinternal, hname, hcases⟩ := Database.createIndex_cases h
  have hsame : Keyword.same t.name i.table = true := by simpa using List.find?_some ht
  have hlisted : d.inventory.table? i.table = some t.listed := by
    rw [Database.table?_inventory ((Database.isInternal_eq hsame).symm.trans hkept), ht]
    rfl
  refine ⟨hinternal, Database.not_hasTable_inventory hname, t.listed, hlisted, ?_⟩
  rw [Database.hasIndex_inventory_iff]
  rcases hcases with ⟨hthere, hguard, rfl⟩ | ⟨hnone, rfl⟩
  · exact .inl ⟨hguard, hthere, rfl⟩
  · refine .inr ⟨by rw [hnone]; decide, ?_⟩
    simp [Database.inventory, Table.listed]

theorem hasTable_of_table? {v : Inventory} {t : ListedTable} {name : String} (h : v.table? name = some t) :
    v.HasTable name :=
  ⟨t, List.mem_of_find?_eq_some h, by simpa using List.find?_some h⟩

/-- A table that is listed is found, and is none of the engine's own. -/
theorem exists_table?_of_hasTable (h : d.inventory.HasTable i.table) :
    ∃ t, d.table? i.table = some t ∧ Database.isInternal t.name = false ∧
      d.inventory.table? i.table = some t.listed := by
  obtain ⟨l, hl, hname⟩ := h
  obtain ⟨u, hu, hkept, rfl⟩ := Database.mem_inventory_tables.1 hl
  have htable : Database.isInternal i.table = false := (Database.isInternal_eq hname).symm.trans hkept
  have hsome : (d.table? i.table).isSome = true := List.find?_isSome.2 ⟨u, hu, hname⟩
  obtain ⟨t, ht⟩ := Option.isSome_iff_exists.1 hsome
  have hsame : Keyword.same t.name i.table = true := by simpa using List.find?_some ht
  refine ⟨t, ht, (Database.isInternal_eq hsame).trans htable, ?_⟩
  rw [Database.table?_inventory htable, ht]
  rfl

theorem refused (hi : i.IsSpelled) (h : Dialect.embedded.Refuses (.index i)) :
    Engine.embedded.script i.sql c ≠ (.ok (), c') := by
  intro hrun
  have hbare := isBare_of_runScript hi hrun
  obtain ⟨text, hruns⟩ := exists_isRunAs hi hbare
  obtain ⟨d, hok, -⟩ := (hruns _ _).1 hrun
  obtain ⟨x, hx, hrefused⟩ := h
  exact hrefused.1 (isBare_iff.1 ⟨hbare, (inventory_of_createIndex hok).1⟩ x hx)

theorem skipped {b b' : Connection Database} (hi : i.IsSpelled) (hrun : Engine.embedded.script i.sql b = (.ok (), b'))
    (hguard : i.ifNotExists = true) (hthere : (SchemaStatement.index i).IsThere c.database.inventory) :
    Engine.embedded.script i.sql c = (.ok (), c) := by
  obtain ⟨text, hruns⟩ := exists_isRunAs hi (isBare_of_runScript hi hrun)
  obtain ⟨d, hok, -⟩ := (hruns _ _).1 hrun
  have hinternal := (inventory_of_createIndex hok).1
  obtain ⟨htable, hname, hindex⟩ := hthere
  obtain ⟨t, ht, hkept, -⟩ := exists_table?_of_hasTable htable
  have hfind : c.database.table i.table = .ok t := by
    rw [Database.table, ht]
  have hnone : (c.database.table? i.name).isSome = false := by
    rwa [← Bool.not_eq_true, ← Database.hasTable_inventory_iff hinternal]
  refine (hruns c c).2 ⟨c.database, ?_, rfl⟩
  simp only [Database.createIndex, hfind, bind, Except.bind, hkept, hinternal, hnone,
    Database.hasIndex_inventory_iff.1 hindex, hguard, Bool.false_eq_true, if_false, if_true]
  rfl

/-- **Where an index is founded**, it is created unless there is one of its name. -/
theorem accepted (hi : i.IsSpelled) (htakes : Dialect.embedded.Takes (.index i))
    (hfree : (SchemaStatement.index i).IsFree c.database.inventory)
    (hfounded : (SchemaStatement.index i).IsFounded c.database.inventory) :
    ∃ c', Engine.embedded.script i.sql c = (.ok (), c') := by
  obtain ⟨hbare, hinternal⟩ := isBare_iff.2 htakes
  obtain ⟨text, hruns⟩ := exists_isRunAs hi hbare
  obtain ⟨htable, hname, hindex⟩ := hfree
  obtain ⟨horderly, l, hl, hlname, hcolumn⟩ := hfounded
  obtain ⟨t, ht, hkept, hlisted⟩ := exists_table?_of_hasTable htable
  rw [horderly.table?_eq_some hl (hlname ▸ Keyword.same_refl l.name)] at hlisted
  obtain rfl := Option.some.inj hlisted
  have hnone : c.database.table? i.name = none := by
    rwa [← Option.not_isSome_iff_eq_none, ← Database.hasTable_inventory_iff hinternal]
  have hnoindex : c.database.index? i.name = none := by
    rwa [← Option.not_isSome_iff_eq_none, ← Database.hasIndex_inventory_iff]
  have hfound : (t.columnIndex? i.column).isSome = true := by
    obtain ⟨column, hcolumns, hsame⟩ := List.mem_map.1 hcolumn
    rw [Table.columnIndex?, List.findIdx?_isSome, List.any_eq_true]
    exact ⟨column, hcolumns, hsame ▸ Keyword.same_refl _⟩
  exact ⟨_, (hruns _ _).2 ⟨_, (Database.createIndex_eq_ok_iff ht hkept hinternal hnone hfound).2
    (.inl ⟨hnoindex, rfl⟩), rfl⟩⟩

theorem effect (hi : i.IsSpelled) (hrun : Engine.embedded.script i.sql c = (.ok (), c')) :
    Dialect.IsName .created i.name ∧
      (i.ifNotExists = true ∧ (SchemaStatement.index i).IsThere c.database.inventory ∧ c' = c ∨
        (SchemaStatement.index i).IsFree c.database.inventory ∧
          ∃ t, c.database.inventory.table? i.table = some t ∧ c'.database.inventory = { c.database.inventory with
            indexes := c.database.inventory.indexes ++ [⟨i.name, t.name, [i.column]⟩] }) := by
  have hbare := isBare_of_runScript hi hrun
  obtain ⟨text, hruns⟩ := exists_isRunAs hi hbare
  obtain ⟨d, hok, rfl⟩ := (hruns _ _).1 hrun
  obtain ⟨hinternal, hname, t, ht, hcases⟩ := inventory_of_createIndex hok
  refine ⟨⟨hbare.name_isFree.1, hbare.name_isFree.2, hinternal⟩, ?_⟩
  rcases hcases with ⟨hguard, hthere, rfl⟩ | ⟨hnone, hadds⟩
  · exact .inl ⟨hguard, ⟨hasTable_of_table? ht, hname, hthere⟩, rfl⟩
  · exact .inr ⟨⟨hasTable_of_table? ht, hname, hnone⟩, t, ht, hadds⟩

end WrittenIndex

/-- **The embedded engine does what is expected of an engine**, in its dialect. -/
theorem Engine.embedded_speaks : Engine.embedded.Speaks Dialect.embedded Database.inventory where
  start_eq _ := rfl
  commit_eq _ := rfl
  refused {s c c'} hs hw h := by
    cases s with
    | table t => exact WrittenTable.refused hs hw h
    | index i =>
      have hwhole : (SchemaStatement.index i).IsWhole := trivial
      have hrefuses := h.resolve_right (not_not.2 hwhole)
      exact WrittenIndex.refused hs hrefuses
  skipped {s b b' c} hs hrun hguard hthere := by
    cases s with
    | table t => exact WrittenTable.skipped hs hrun hguard hthere
    | index i => exact WrittenIndex.skipped hs hrun hguard hthere
  accepted {s c} hs hwhole htakes hfits hdefinable hfree hfounded := by
    cases s with
    | table t => exact WrittenTable.accepted hs hwhole htakes hfits hdefinable hfree
    | index i => exact WrittenIndex.accepted hs htakes hfree hfounded
  effect {s c c'} hs hrun := by
    cases s with
    | table t =>
      obtain ⟨hname, hcases⟩ := WrittenTable.effect hs hrun
      exact ⟨fun h => h.1 hname, hcases⟩
    | index i =>
      obtain ⟨hname, hcases⟩ := WrittenIndex.effect hs hrun
      exact ⟨fun h => h.1 hname, hcases.imp_right fun ⟨hfree, t, _, hadds⟩ => ⟨hfree, t.name, _, hadds⟩⟩
  effect_asWritten {s c c'} hs htakes hfree hfounded hrun := by
    cases s with
    | table t => exact WrittenTable.effect_asWritten hs htakes hfree.1 hrun
    | index i =>
      obtain ⟨-, ⟨-, hthere, -⟩ | ⟨-, t, ht, hadds⟩⟩ := WrittenIndex.effect hs hrun
      · exact absurd hthere.2.2 hfree.2.2
      · obtain ⟨horderly, l, hl, hname, -⟩ := hfounded
        rw [horderly.table?_eq_some hl (hname ▸ Keyword.same_refl l.name)] at ht
        obtain rfl := Option.some.inj ht
        rw [SchemaStatement.AddsAsWritten, hadds, hname]
  hasTable_eq {name} c hname := by
    rw [Database.lists_inventory (Dialect.isName_of_not_refuses hname).2.2]
    rfl
  counts {name c t} hvalid hname ht := by
    obtain ⟨hfree, -, hinternal⟩ := Dialect.isName_of_not_refuses hname
    rw [Database.table?_inventory hinternal] at ht
    obtain ⟨u, hu, rfl⟩ := Option.map_eq_some_iff.1 ht
    obtain ⟨labels, hquery⟩ := Engine.query_count hvalid hfree (Database.readable_of_table? hinternal hu)
    rw [Statement.count_empty] at hquery
    refine ⟨labels, _, hquery, fun hsize => ?_⟩
    have hrows : (u.rows.length : Int) ≤ Int64.maxValue.toInt := hsize
    have hmax : Int64.maxValue.toInt = 0x7FFFFFFFFFFFFFFF := rfl
    exact Int64.toInt_ofNat_of_lt (by omega)

end TypedTables

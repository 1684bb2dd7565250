import TypedTables.Proofs.Database.Embedded
import TypedTables.Proofs.Database.Status
import TypedTables.Proofs.Extraction.Registry
import TypedTables.Proofs.Schema.CreationOrder
/-!
# TypedTables — migrating what was extracted

When the tables and indexes of extracted models can be created, on any engine
that does what is expected of one. Extraction does not check it: it knows no
reserved words, and it takes names for different that an engine takes for the
same. `Model.AreCreatable` is what has to hold besides. It is needed, and nothing
else is.
-/

namespace TypedTables

open Keyword (Differ)

variable {δ : Type} {e : Engine δ} {w : Dialect} {list : δ → Inventory}

/-! ## What has to hold -/

/-- **A plan migrates** on a database: its tables and indexes are created, and
the status then says that every table is there. -/
def SchemaPlan.Migrates (p : SchemaPlan) (e : Engine δ) (c : Connection δ) : Prop :=
  ∃ after, Migration.up e p c = (.ok (), after) ∧
    ∃ s reported, Migration.status e p after = (.ok s, reported) ∧
      s.tables.map (·.name) = p.tables ∧ ∀ t ∈ s.tables, t.tableExists = true

namespace Model

/-- The columns that get an index, each with its model. -/
def indexed (ms : List Model) : List (Model × Field) :=
  ms.flatMap fun m => m.indexedFields.map fun f => (m, f)

/-- **The statements for models** as they are written: all tables, then all
indexes. -/
def statements (ms : List Model) (o : DdlOptions) : List SchemaStatement :=
  ms.map (fun m => .table (m.written o)) ++
    if o.emitIndexes then (indexed ms).map fun p => .index (p.1.writtenIndex o p.2) else []

/-- **What an engine asks of models** besides what extraction checks. -/
structure AreCreatable (w : Dialect) (o : DdlOptions) (ms : List Model) : Prop where
  names_areTaken : ∀ s ∈ statements ms o, w.Takes s
  group_ne_nil : ∀ m ∈ ms, [] ∉ m.uniqueGroups
  /-- A text ends at its first character without a number. -/
  default_isWhole : ∀ m ∈ ms, ∀ f ∈ m.fields, ∀ s, f.defaultValue = some (.text s) →
    ∀ c ∈ s.toList, c.toNat ≠ 0
  columns_differ : ∀ m ∈ ms, m.columns.Pairwise Differ
  tables_differ : (ms.map (·.tableName)).Pairwise Differ
  index_isFree : ∀ m ∈ ms, ∀ f ∈ m.indexedFields, ∀ n ∈ ms,
    Differ (indexName m.tableName f.columnName) n.tableName

end Model

/-- **What extraction says of the models of one provider.** -/
structure Model.AreSound (ms : List Model) : Prop where
  each_isSound : ∀ m ∈ ms, m.IsSound
  tables_nodup : (ms.map (·.tableName)).Nodup

/-- **A table of a provider has one model.** -/
theorem Registry.IsSound.eq_of_table {r : Registry} (h : r.IsSound) {m n : Model}
    (hm : m ∈ r.models.values) (hn : n ∈ r.models.values) (hprovider : m.provider.name = n.provider.name)
    (htable : m.tableName = n.tableName) : m = n := by
  have hfound := h.table_isOwn m hm
  rw [hprovider, htable, h.table_isOwn n hn] at hfound
  exact (Option.some.inj hfound).symm

/-- The models of a provider are sound together. -/
theorem Registry.IsSound.areSound {r : Registry} (h : r.IsSound) (provider : String) :
    Model.AreSound (r.modelsOf provider) := by
  have hmem : ∀ m ∈ r.modelsOf provider, m ∈ r.models.values ∧ m.provider.name = provider := by
    intro m hm
    obtain ⟨hm, hp⟩ := List.mem_filter.1 hm
    exact ⟨hm, beq_iff_eq.1 hp⟩
  have hnodup : (r.modelsOf provider).Nodup := (List.Nodup.of_map _ h.modules_nodup).filter _
  refine ⟨fun m hm => h.models_areSound m (hmem m hm).1, hnodup.map_on fun m hm n hn htable => ?_⟩
  exact h.eq_of_table (hmem m hm).1 (hmem n hn).1 ((hmem m hm).2.trans (hmem n hn).2.symm) htable

namespace Model

variable {m : Model} {ms ns : List Model} {o : DdlOptions}

/-- The order of models does not matter for it. -/
theorem AreSound.perm (h : AreSound ms) (hp : ns.Perm ms) : AreSound ns where
  each_isSound m hm := h.each_isSound m (hp.mem_iff.1 hm)
  tables_nodup := (hp.map _).nodup_iff.2 h.tables_nodup

theorem mem_indexed {p : Model × Field} : p ∈ indexed ms ↔ p.1 ∈ ms ∧ p.2 ∈ p.1.indexedFields := by
  simp only [indexed, List.mem_flatMap, List.mem_map]
  constructor
  · rintro ⟨m, hm, f, hf, rfl⟩
    exact ⟨hm, hf⟩
  · exact fun h => ⟨p.1, h.1, p.2, h.2, rfl⟩

theorem mem_fields_of_indexed {f : Field} (h : f ∈ m.indexedFields) : f ∈ m.fields :=
  (List.mem_filter.1 h).1

/-! ## The statements of a plan -/

theorem table_mem_statements (hm : m ∈ ms) : .table (m.written o) ∈ statements ms o :=
  List.mem_append_left _ (List.mem_map_of_mem hm)

theorem index_mem_statements (ho : o.emitIndexes = true) {p : Model × Field} (hp : p ∈ indexed ms) :
    .index (p.1.writtenIndex o p.2) ∈ statements ms o := by
  refine List.mem_append_right _ ?_
  rw [if_pos ho]
  exact List.mem_map_of_mem hp

/-- More models have more statements. -/
theorem statements_mono (h : ms ⊆ ns) : statements ms o ⊆ statements ns o := by
  refine List.append_subset.2 ⟨List.Subset.trans (List.map_subset _ h) (List.subset_append_left _ _), ?_⟩
  refine List.Subset.trans ?_ (List.subset_append_right _ _)
  split
  · refine List.map_subset _ fun p hp => ?_
    exact mem_indexed.2 ⟨h (mem_indexed.1 hp).1, (mem_indexed.1 hp).2⟩
  · exact List.nil_subset _

theorem statements_perm (hp : ns.Perm ms) : (statements ns o).Perm (statements ms o) := by
  refine (hp.map _).append ?_
  split
  · exact (hp.flatMap_right _).map _
  · exact .nil

/-- **The statements of a plan** are those that are written. -/
theorem statements_ofModels : (SchemaPlan.ofModels ms o).statements =
    (statements (creationOrder ms) o).map SchemaStatement.sql := by
  have htables : (creationOrder ms).map (·.createTable o) =
      (creationOrder ms).map fun m => (SchemaStatement.table (m.written o)).sql :=
    List.map_congr_left fun m _ => m.createTable_eq o
  have hindexes : (creationOrder ms).flatMap (·.createIndexes o) = (if o.emitIndexes then
      (indexed (creationOrder ms)).map fun p => SchemaStatement.index (p.1.writtenIndex o p.2) else []).map
        SchemaStatement.sql := by
    unfold createIndexes indexed
    split
    · simp only [List.map_flatMap, List.map_map]
      rfl
    · simp
  rw [SchemaPlan.ofModels, statements, List.map_append, List.map_map, htables, hindexes]
  rfl

theorem isSpelled_of_mem_statements (hs : ∀ m ∈ ms, m.IsSound) :
    ∀ s ∈ statements ms o, s.IsSpelled := by
  intro s hmem
  rcases List.mem_append.1 hmem with hmem | hmem
  · obtain ⟨m, hm, rfl⟩ := List.mem_map.1 hmem
    exact isSpelled_written (hs m hm)
  · split at hmem
    · obtain ⟨p, hp, rfl⟩ := List.mem_map.1 hmem
      obtain ⟨hm, hf⟩ := mem_indexed.1 hp
      exact isSpelled_writtenIndex (hs _ hm) (mem_fields_of_indexed hf)
    · cases hmem

/-- The clauses of a sound model go together if its columns are told apart. -/
theorem isDefinable_written (hm : m.IsSound) (hdiffer : m.columns.Pairwise Differ) :
    (m.written o).IsDefinable where
  key_unique := by
    obtain ⟨k, hk⟩ := hm.exists_key
    have hkeys : (m.fields.map Field.written).filter (·.isPrimaryKey) = [k.written] := by
      have hfilter : m.fields.filter (fun f => f.written.isPrimaryKey) = [k] := hk
      rw [List.filter_map, Function.comp_def, hfilter]
      rfl
    rw [columns_written, hkeys]
    exact Nat.le_refl 1
  isKey_of_autoIncrement := by
    rw [columns_written]
    refine List.forall_mem_map.2 fun f hf hauto => ?_
    have hfield := hm.fields_areSound f hf
    refine ⟨hfield.isPrimaryKey_of_isAutoIncrement hauto, ?_⟩
    have hintegral := hfield.isIntegral_of_isAutoIncrement hauto
    show f.semanticType.affinity = .integer
    cases ht : f.semanticType <;> rw [ht] at hintegral <;> first | rfl | nomatch hintegral
  columns_differ := columnNames_written (o := o) ▸ hdiffer
  localColumn_mem := by
    rw [foreignKeys_written, columnNames_written]
    exact hm.localColumn_mem
  uniqueColumn_mem := by
    rw [uniqueGroups_written, columnNames_written]
    exact hm.uniqueColumn_mem

theorem isWhole_written : (SchemaStatement.table (m.written o)).IsWhole ↔ [] ∉ m.uniqueGroups ∧
    ∀ f ∈ m.fields, ∀ s, f.defaultValue = some (.text s) → ∀ c ∈ s.toList, c.toNat ≠ 0 := by
  rw [SchemaStatement.IsWhole, uniqueGroups_written, endsText_written]

theorem areCreatable_perm (hp : ns.Perm ms) : AreCreatable w o ns ↔ AreCreatable w o ms := by
  have hmono : ∀ {ns ms : List Model}, ns.Perm ms → AreCreatable w o ms → AreCreatable w o ns := by
    intro ns ms hp h
    exact {
      names_areTaken := fun s hs => h.names_areTaken s ((statements_perm hp).mem_iff.1 hs)
      group_ne_nil := fun m hm => h.group_ne_nil m (hp.mem_iff.1 hm)
      default_isWhole := fun m hm => h.default_isWhole m (hp.mem_iff.1 hm)
      columns_differ := fun m hm => h.columns_differ m (hp.mem_iff.1 hm)
      tables_differ := ((hp.map _).pairwise_iff fun h => Differ.symm h).2 h.tables_differ
      index_isFree := fun m hm f hf n hn => h.index_isFree m (hp.mem_iff.1 hm) f hf n (hp.mem_iff.1 hn) }
  exact ⟨hmono hp.symm, hmono hp⟩

/-- Whether the embedded engine takes models can be checked. -/
instance (o : DdlOptions) (ms : List Model) : Decidable (AreCreatable Dialect.embedded o ms) :=
  decidable_of_iff
    ((∀ s ∈ statements ms o, Dialect.embedded.Takes s) ∧ (∀ m ∈ ms, [] ∉ m.uniqueGroups) ∧
      (∀ m ∈ ms, (m.written o).endsText = false) ∧ (∀ m ∈ ms, m.columns.Pairwise Differ) ∧
      (ms.map (·.tableName)).Pairwise Differ ∧
      ∀ m ∈ ms, ∀ f ∈ m.indexedFields, ∀ n ∈ ms, Differ (indexName m.tableName f.columnName) n.tableName)
    ⟨fun ⟨h₁, h₂, h₃, h₄, h₅, h₆⟩ => ⟨h₁, h₂, fun m hm => endsText_written.1 (h₃ m hm), h₄, h₅, h₆⟩,
      fun h => ⟨h.1, h.2, fun m hm => endsText_written.2 (h.3 m hm), h.4, h.5, h.6⟩⟩

/-! ## Creating the tables -/

variable {c c' : Connection δ}

/-- The table of a model, as it is listed once it was created. -/
def listed (m : Model) : ListedTable := ⟨m.tableName, m.columns, 0⟩

/-- **All tables can be created** where there are none. -/
theorem exists_run_tables (he : e.Speaks w list) (hs : ∀ m ∈ ms, m.IsSound) (h : AreCreatable w o ms)
    (hfits : ∀ s ∈ statements ms o, w.fits s) (hempty : list c.database = {}) :
    ∃ c', Migration.runScripts e .notCreated (ms.map fun m => (SchemaStatement.table (m.written o)).sql) c =
      (.ok (), c') ∧ list c'.database = { tables := ms.map listed } := by
  refine Migration.exists_runScripts (I := fun placed d => list d = { tables := placed.map listed })
    hempty fun before m after heq c hc => ?_
  have hm : m ∈ ms := heq ▸ List.mem_append_right before List.mem_cons_self
  have hmem := table_mem_statements (o := o) hm
  have hspelled := isSpelled_of_mem_statements hs _ hmem
  have htakes := h.names_areTaken _ hmem
  have hfree : (SchemaStatement.table (m.written o)).IsFree (list c.database) := by
    rw [hc]
    refine ⟨Inventory.not_hasTable.2 fun t ht => ?_, Inventory.not_hasIndex.2 nofun⟩
    obtain ⟨n, hn, rfl⟩ := List.mem_map.1 ht
    have hdiffer := List.pairwise_map.1 h.tables_differ
    rw [heq, List.pairwise_append] at hdiffer
    exact hdiffer.2.2 n hn m List.mem_cons_self
  obtain ⟨c', hrun⟩ := he.accepted hspelled
    (isWhole_written.2 ⟨h.group_ne_nil m hm, h.default_isWhole m hm⟩) htakes (hfits _ hmem)
    (isDefinable_written (hs m hm) (h.columns_differ m hm)) hfree trivial
  obtain ⟨-, hadds⟩ := he.effect_asWritten hspelled htakes hfree trivial hrun
  refine ⟨c', hrun, ?_⟩
  rw [hadds, hc, columnNames_written, List.map_append]
  rfl

/-- **What is there after the tables of some models were created**: their tables,
perhaps not of all. -/
structure AreListed (ms : List Model) (v : Inventory) : Prop where
  areOf : ∀ t ∈ v.tables, ∃ m ∈ ms, t = m.listed ∧ m.columns.Pairwise Differ
  isOrderly : v.IsOrderly

/-- Two models whose tables are there are told apart, or have the same table. -/
theorem AreListed.differ {v : Inventory} (h : AreListed ns v) {n : Model} (hm : m.listed ∈ v.tables)
    (hn : n.listed ∈ v.tables) (hne : m.listed ≠ n.listed) : Differ m.tableName n.tableName := by
  have hdiffer : Differ m.listed.name n.listed.name := h.isOrderly.forall hm hn hne
  exact hdiffer

/-- **One table more.** -/
theorem areListed_of_run_table (he : e.Speaks w list) (hm : m.IsSound)
    (hw : w.Decides (.table (m.written o))) (hmem : m ∈ ms) (hc : AreListed ms (list c.database))
    (hrun : e.script (SchemaStatement.table (m.written o)).sql c = (.ok (), c')) :
    AreListed ms (list c'.database) := by
  have hspelled : (SchemaStatement.table (m.written o)).IsSpelled := isSpelled_written hm
  obtain ⟨-, ⟨-, -, rfl⟩ | ⟨hfree, -⟩⟩ := he.effect hspelled hrun
  · exact hc
  · obtain ⟨hdiffer, hadds⟩ := he.effect_asWritten hspelled (he.takes_of_script hspelled hw hrun).1 hfree trivial hrun
    rw [columnNames_written] at hdiffer hadds
    rw [hadds]
    constructor
    · intro t ht
      rcases List.mem_append.1 ht with ht | ht
      · exact hc.areOf t ht
      · exact ⟨m, hmem, List.mem_singleton.1 ht, hdiffer⟩
    · refine List.pairwise_append.2 ⟨hc.isOrderly, List.pairwise_singleton _ _, fun t ht u hu => ?_⟩
      rw [List.mem_singleton.1 hu]
      exact Inventory.not_hasTable.1 hfree.1 t ht

/-- What the tables say of the models if all of them are created. -/
theorem of_run_tables (he : e.Speaks w list) (hs : ∀ m ∈ ms, m.IsSound)
    (hw : ∀ m ∈ ms, w.Decides (.table (m.written o))) (hempty : list c.database = {})
    (hrun : Migration.runScripts e .notCreated (ms.map fun m => (SchemaStatement.table (m.written o)).sql) c =
      (.ok (), c')) :
    (∀ m ∈ ms, (w.Takes (.table (m.written o)) ∧ (SchemaStatement.table (m.written o)).IsWhole) ∧
      ¬w.refuses .created m.tableName) ∧ AreListed ms (list c'.database) := by
  have hnone : AreListed ms (list c.database) := by
    rw [hempty]
    exact ⟨nofun, .nil⟩
  refine Migration.forall_of_runScripts (I := fun d => AreListed ms (list d)) hnone hrun
    fun m hm c c' hc hrun => ⟨⟨?_, ?_⟩, areListed_of_run_table he (hs m hm) (hw m hm) hm hc hrun⟩
  · exact he.takes_of_script (isSpelled_written (hs m hm)) (hw m hm) hrun
  · exact (he.effect (s := .table (m.written o)) (isSpelled_written (hs m hm)) hrun).1

/-! ## Creating the indexes -/

/-- The index on a field, as it is listed once it was created. -/
def listedIndex (m : Model) (f : Field) : ListedIndex :=
  ⟨indexName m.tableName f.columnName, m.tableName, [f.columnName]⟩

/-- An index is founded once the tables are there. -/
theorem isFounded_index (hdiffer : (ms.map (·.tableName)).Pairwise Differ) {p : Model × Field}
    (hp : p ∈ indexed ms) {v : Inventory} (hv : v.tables = ms.map listed) :
    (SchemaStatement.index (p.1.writtenIndex o p.2)).IsFounded v := by
  obtain ⟨hm, hf⟩ := mem_indexed.1 hp
  constructor
  · rw [Inventory.IsOrderly, hv]
    exact List.pairwise_map.2 (List.pairwise_map.1 hdiffer)
  · rw [hv]
    exact ⟨p.1.listed, List.mem_map_of_mem hm, rfl, List.mem_map_of_mem (mem_fields_of_indexed hf)⟩

theorem hasTable_of_mem (hm : m ∈ ms) {v : Inventory} (hv : v.tables = ms.map listed) :
    v.HasTable m.tableName :=
  ⟨m.listed, hv ▸ List.mem_map_of_mem hm, Keyword.same_refl m.tableName⟩

/-- No table has the name of an index. -/
theorem AreCreatable.not_hasTable_index (h : AreCreatable w o ms) {p : Model × Field} (hp : p ∈ indexed ms)
    {v : Inventory} (hv : v.tables = ms.map listed) :
    ¬v.HasTable (indexName p.1.tableName p.2.columnName) := by
  obtain ⟨hm, hf⟩ := mem_indexed.1 hp
  rw [Inventory.not_hasTable, hv]
  exact List.forall_mem_map.2 fun n hn => (h.index_isFree p.1 hm p.2 hf n hn).symm

/-- **What the script for an index can do** once the tables are there: it adds the
index, or leaves alone one of the same name. -/
theorem cases_of_run_index (he : e.Speaks w list) (hs : ∀ m ∈ ms, m.IsSound) (ho : o.emitIndexes = true)
    (h : AreCreatable w o ms) {p : Model × Field} (hp : p ∈ indexed ms)
    (hc : (list c.database).tables = ms.map listed)
    (hrun : e.script (SchemaStatement.index (p.1.writtenIndex o p.2)).sql c = (.ok (), c')) :
    o.ifNotExists = true ∧ (list c.database).HasIndex (p.1.listedIndex p.2).name ∧ c' = c ∨
      ¬(list c.database).HasIndex (p.1.listedIndex p.2).name ∧
        list c'.database = { list c.database with
          indexes := (list c.database).indexes ++ [p.1.listedIndex p.2] } := by
  have hmem := index_mem_statements ho hp
  have hspelled := isSpelled_of_mem_statements hs _ hmem
  obtain ⟨-, ⟨hguard, hthere, hsame⟩ | ⟨hfree, -⟩⟩ := he.effect hspelled hrun
  · exact .inl ⟨hguard, hthere.2.2, hsame⟩
  · exact .inr ⟨hfree.2.2, he.effect_asWritten hspelled (h.names_areTaken _ hmem) hfree
      (isFounded_index h.tables_differ hp hc) hrun⟩

/-- **An index can be created** once the tables are there, unless one of its name
is. -/
theorem exists_run_index (he : e.Speaks w list) (hs : ∀ m ∈ ms, m.IsSound) (ho : o.emitIndexes = true)
    (h : AreCreatable w o ms) (hfits : ∀ s ∈ statements ms o, w.fits s) {p : Model × Field} (hp : p ∈ indexed ms)
    (hc : (list c.database).tables = ms.map listed)
    (hnew : ¬(list c.database).HasIndex (p.1.listedIndex p.2).name) :
    ∃ c', e.script (SchemaStatement.index (p.1.writtenIndex o p.2)).sql c = (.ok (), c') := by
  have hmem := index_mem_statements ho hp
  exact he.accepted (isSpelled_of_mem_statements hs _ hmem) trivial (h.names_areTaken _ hmem) (hfits _ hmem)
    trivial ⟨hasTable_of_mem (mem_indexed.1 hp).1 hc, h.not_hasTable_index hp hc, hnew⟩
    (isFounded_index h.tables_differ hp hc)

/-- **All indexes can be created** once the tables are there. A statement for one
that is there already can be read, as it could be before there were any. -/
theorem exists_run_indexes (he : e.Speaks w list) (hs : ∀ m ∈ ms, m.IsSound) (ho : o.emitIndexes = true)
    (hguard : o.ifNotExists = true) (h : AreCreatable w o ms) (hfits : ∀ s ∈ statements ms o, w.fits s)
    (hc : list c.database = { tables := ms.map listed }) :
    ∃ c', Migration.runScripts e .notCreated
      ((indexed ms).map fun p => (SchemaStatement.index (p.1.writtenIndex o p.2)).sql) c = (.ok (), c') ∧
        (list c'.database).tables = ms.map listed := by
  have htables : (list c.database).tables = ms.map listed := congrArg Inventory.tables hc
  refine Migration.exists_runScripts (I := fun _ d => (list d).tables = ms.map listed) htables
    fun before p after heq c₁ hc₁ => ?_
  have hp : p ∈ indexed ms := heq ▸ List.mem_append_right before List.mem_cons_self
  by_cases hthere : (list c₁.database).HasIndex (p.1.listedIndex p.2).name
  · have hnone : ¬(list c.database).HasIndex (p.1.listedIndex p.2).name := by
      rw [hc]
      exact Inventory.not_hasIndex.2 nofun
    obtain ⟨_, hread⟩ := exists_run_index he hs ho h hfits hp htables hnone
    have hspelled := isSpelled_of_mem_statements hs _ (index_mem_statements ho hp)
    exact ⟨c₁, he.skipped hspelled hread hguard
      ⟨hasTable_of_mem (mem_indexed.1 hp).1 hc₁, h.not_hasTable_index hp hc₁, hthere⟩, hc₁⟩
  · obtain ⟨c₂, hrun⟩ := exists_run_index he hs ho h hfits hp hc₁ hthere
    refine ⟨c₂, hrun, ?_⟩
    obtain ⟨-, -, rfl⟩ | ⟨-, hadds⟩ := cases_of_run_index he hs ho h hp hc₁ hrun
    · exact hc₁
    · rw [hadds]
      exact hc₁

/-- What the indexes say of the tables if all of them are created. -/
theorem of_run_indexes (he : e.Speaks w list) (hs : ∀ m ∈ ms, m.IsSound)
    (hw : ∀ p ∈ indexed ms, w.Decides (.index (p.1.writtenIndex o p.2)))
    (hrun : Migration.runScripts e .notCreated
      ((indexed ms).map fun p => (SchemaStatement.index (p.1.writtenIndex o p.2)).sql) c = (.ok (), c')) :
    (∀ p ∈ indexed ms, w.Takes (.index (p.1.writtenIndex o p.2)) ∧
      ¬(list c.database).HasTable (indexName p.1.tableName p.2.columnName)) ∧
        (list c'.database).tables = (list c.database).tables := by
  refine Migration.forall_of_runScripts (I := fun d => (list d).tables = (list c.database).tables) rfl hrun
    fun p hp c₁ c₂ hc₁ hrun => ?_
  obtain ⟨hm, hf⟩ := mem_indexed.1 hp
  have hspelled : (SchemaStatement.index (p.1.writtenIndex o p.2)).IsSpelled :=
    isSpelled_writtenIndex (hs _ hm) (mem_fields_of_indexed hf)
  have htakes := (he.takes_of_script hspelled (hw p hp) hrun).1
  have hsame : ∀ name, (list c₁.database).HasTable name ↔ (list c.database).HasTable name := fun name => by
    rw [Inventory.HasTable, hc₁, Inventory.HasTable]
  obtain ⟨-, ⟨-, hthere, rfl⟩ | ⟨hfree, table, columns, hadds⟩⟩ := he.effect hspelled hrun
  · exact ⟨⟨htakes, mt (hsame _).2 hthere.2.1⟩, hc₁⟩
  · rw [hadds]
    exact ⟨⟨htakes, mt (hsame _).2 hfree.2.1⟩, hc₁⟩

/-! ## Migrating -/

theorem tables_areValid (hs : ∀ m ∈ ms, m.IsSound) :
    ∀ name ∈ (SchemaPlan.ofModels ms o).tables, Identifier.isValid name = true := by
  intro name hname
  obtain ⟨m, hm, rfl⟩ := List.mem_map.1 hname
  exact (hs m ((creationOrder_perm ms).mem_iff.1 hm)).tableName_isValid

/-- **A plan is created** just if its tables are, and its indexes after them. -/
theorem up_eq_ok (he : e.Speaks w list) (hs : ∀ m ∈ ms, m.IsSound) (ho : o.emitIndexes = true) :
    Migration.up e (SchemaPlan.ofModels ms o) c = (.ok (), c') ↔ ∃ c₁,
      Migration.runScripts e .notCreated
        ((creationOrder ms).map fun m => (SchemaStatement.table (m.written o)).sql) c = (.ok (), c₁) ∧
      Migration.runScripts e .notCreated ((indexed (creationOrder ms)).map fun p =>
        (SchemaStatement.index (p.1.writtenIndex o p.2)).sql) c₁ = (.ok (), c') := by
  have hstatements : (statements (creationOrder ms) o).map SchemaStatement.sql =
      ((creationOrder ms).map fun m => (SchemaStatement.table (m.written o)).sql) ++
        (indexed (creationOrder ms)).map fun p => (SchemaStatement.index (p.1.writtenIndex o p.2)).sql := by
    rw [statements, if_pos ho, List.map_append, List.map_map, List.map_map]
    rfl
  rw [Migration.up_eq_ok he (tables_areValid hs), statements_ofModels, hstatements,
    Migration.runScripts_append_eq_ok]

/-- **The status of a plan** whose tables were created just now: they have no
rows. -/
theorem status_eq (he : e.Speaks w list) {p : SchemaPlan} (hp : ∀ name ∈ p.tables, Migration.IsAskable w name)
    (hc : ∀ t ∈ (list c.database).tables, t.rows = 0) :
    Migration.status e p c = (.ok ⟨p.tables.map fun name => ⟨name, (list c.database).lists name, 0⟩⟩, c) := by
  have hrows : ∀ name t, (list c.database).table? name = some t → t.rows = 0 := fun name t ht =>
    hc t (List.mem_of_find?_eq_some ht)
  have heach : p.tables.map (list c.database).tableStatus =
      p.tables.map fun name => ⟨name, (list c.database).lists name, 0⟩ := by
    refine List.map_congr_left fun name _ => ?_
    rcases ht : (list c.database).table? name with _ | t
    · simp [Inventory.tableStatus, ht]
    · simp [Inventory.tableStatus, ht, hrows name t ht]
  rw [Migration.status_eq he hp, heach]
  intro name _ t ht
  rw [hrows name t ht]
  decide

/-- **A plan of creatable models is created.** -/
theorem exists_up (he : e.Speaks w list) (hs : ∀ m ∈ ms, m.IsSound) (h : AreCreatable w o ms)
    (hfits : ∀ s ∈ statements ms o, w.fits s) (ho : o.emitIndexes = true) (hguard : o.ifNotExists = true)
    (hempty : list c.database = {}) : ∃ after,
      Migration.up e (SchemaPlan.ofModels ms o) c = (.ok (), after) ∧
        (list after.database).tables = (creationOrder ms).map listed := by
  have hperm := creationOrder_perm ms
  have hsound : ∀ m ∈ creationOrder ms, m.IsSound := fun m hm => hs m (hperm.mem_iff.1 hm)
  have hcreatable := (areCreatable_perm hperm).2 h
  have hfits' : ∀ s ∈ statements (creationOrder ms) o, w.fits s := fun s hmem =>
    hfits s ((statements_perm hperm).mem_iff.1 hmem)
  obtain ⟨c₁, htables, hc₁⟩ := exists_run_tables he hsound hcreatable hfits' hempty
  obtain ⟨c₂, hindexes, hc₂⟩ := exists_run_indexes he hsound ho hguard hcreatable hfits' hc₁
  exact ⟨c₂, (up_eq_ok he hs ho).2 ⟨c₁, htables, hindexes⟩, hc₂⟩

/-- **What a plan that was created says of its models.** -/
structure Created (w : Dialect) (o : DdlOptions) (ms : List Model) (v : Inventory) : Prop where
  takes : ∀ s ∈ statements ms o, w.Takes s
  isWhole : ∀ m ∈ ms, (SchemaStatement.table (m.written o)).IsWhole
  not_refused : ∀ m ∈ ms, ¬w.refuses .created m.tableName
  areListed : AreListed ms v
  index_isFree : ∀ p ∈ indexed ms, ¬v.HasTable (indexName p.1.tableName p.2.columnName)

theorem created_of_up (he : e.Speaks w list) (hs : ∀ m ∈ ms, m.IsSound) (hw : ∀ s ∈ statements ms o, w.Decides s)
    (ho : o.emitIndexes = true) (hempty : list c.database = {})
    (hup : Migration.up e (SchemaPlan.ofModels ms o) c = (.ok (), c')) :
    Created w o (creationOrder ms) (list c'.database) := by
  have hperm := creationOrder_perm ms
  have hsound : ∀ m ∈ creationOrder ms, m.IsSound := fun m hm => hs m (hperm.mem_iff.1 hm)
  have hdecides : ∀ s ∈ statements (creationOrder ms) o, w.Decides s := fun s hmem =>
    hw s ((statements_perm hperm).mem_iff.1 hmem)
  obtain ⟨c₁, htables, hindexes⟩ := (up_eq_ok he hs ho).1 hup
  obtain ⟨hof, hlisted⟩ := of_run_tables he hsound (fun m hm => hdecides _ (table_mem_statements hm)) hempty htables
  obtain ⟨hfree, hsame⟩ := of_run_indexes he hsound (fun p hp => hdecides _ (index_mem_statements ho hp)) hindexes
  refine ⟨fun s hmem => ?_, fun m hm => (hof m hm).1.2, fun m hm => (hof m hm).2, ?_, fun p hp => ?_⟩
  · rw [statements, if_pos ho] at hmem
    rcases List.mem_append.1 hmem with hmem | hmem
    · obtain ⟨m, hm, rfl⟩ := List.mem_map.1 hmem
      exact (hof m hm).1.1
    · obtain ⟨p, hp, rfl⟩ := List.mem_map.1 hmem
      exact (hfree p hp).1
  · exact ⟨hsame ▸ hlisted.areOf, by rw [Inventory.IsOrderly, hsame]; exact hlisted.isOrderly⟩
  · rw [Inventory.HasTable, hsame]
    exact (hfree p hp).2

theorem Created.isAskable {v : Inventory} (h : Created w o (creationOrder ms) v) (hs : ∀ m ∈ ms, m.IsSound) :
    ∀ name ∈ (SchemaPlan.ofModels ms o).tables, Migration.IsAskable w name := by
  intro name hname
  refine ⟨tables_areValid hs name hname, ?_⟩
  obtain ⟨m, hm, rfl⟩ := List.mem_map.1 hname
  exact h.not_refused m hm

theorem AreListed.rows_eq {v : Inventory} (h : AreListed ms v) : ∀ t ∈ v.tables, t.rows = 0 := by
  intro t ht
  obtain ⟨m, -, rfl, -⟩ := h.areOf t ht
  rfl

/-- **Creatable models migrate.** -/
theorem migrates_of_areCreatable (he : e.Speaks w list) (hs : ∀ m ∈ ms, m.IsSound) (h : AreCreatable w o ms)
    (hw : ∀ s ∈ statements ms o, w.Decides s) (ho : o.emitIndexes = true) (hguard : o.ifNotExists = true)
    (hempty : list c.database = {}) : (SchemaPlan.ofModels ms o).Migrates e c := by
  obtain ⟨after, hup, htables⟩ := exists_up he hs h (fun s hmem => (hw s hmem).fits) ho hguard hempty
  have hcreated := created_of_up he hs hw ho hempty hup
  refine ⟨after, hup, _, after, status_eq he (hcreated.isAskable hs) hcreated.areListed.rows_eq, ?_, ?_⟩
  · simp [Function.comp_def]
  · intro t ht
    obtain ⟨name, hname, rfl⟩ := List.mem_map.1 ht
    obtain ⟨m, hm, rfl⟩ := List.mem_map.1 hname
    exact List.any_eq_true.2 ⟨m.listed, htables ▸ List.mem_map_of_mem hm, beq_self_eq_true _⟩

/-- **Tables that are reported to be there are those of the models**: a table is
looked for by its very name, and no two models have the same. -/
theorem AreListed.listed_mem {v : Inventory} (h : AreListed ms v) (hnames : (ms.map (·.tableName)).Nodup)
    (hm : m ∈ ms) (hlists : v.lists m.tableName = true) : m.listed ∈ v.tables ∧ m.columns.Pairwise Differ := by
  obtain ⟨t, ht, hname⟩ := List.any_eq_true.1 hlists
  obtain ⟨n, hn, rfl, hdiffer⟩ := h.areOf t ht
  obtain rfl : n = m := List.inj_on_of_nodup_map hnames hn hm (beq_iff_eq.1 hname)
  exact ⟨ht, hdiffer⟩

/-- **Models that migrate are creatable.** -/
theorem areCreatable_of_migrates (he : e.Speaks w list) (hs : AreSound ms)
    (hw : ∀ s ∈ statements ms o, w.Decides s) (ho : o.emitIndexes = true) (hempty : list c.database = {})
    (h : (SchemaPlan.ofModels ms o).Migrates e c) : AreCreatable w o ms := by
  have hperm := creationOrder_perm ms
  have hsound := hs.perm hperm
  obtain ⟨after, hup, s, c₃, hstatus, -, hexist⟩ := h
  have hcreated := created_of_up he hs.each_isSound hw ho hempty hup
  -- each table was asked for by its very name, and was reported to be there
  have hthere : ∀ m ∈ creationOrder ms, m.listed ∈ (list after.database).tables ∧ m.columns.Pairwise Differ := by
    intro m hm
    rw [status_eq he (hcreated.isAskable hs.each_isSound) hcreated.areListed.rows_eq] at hstatus
    obtain ⟨hreported, -⟩ := Prod.mk.inj hstatus
    obtain rfl := Except.ok.inj hreported
    exact hcreated.areListed.listed_mem hsound.tables_nodup hm
      (hexist _ (List.mem_map_of_mem (List.mem_map_of_mem hm)))
  refine (areCreatable_perm hperm).1 {
    names_areTaken := hcreated.takes
    group_ne_nil := fun m hm => (isWhole_written.1 (hcreated.isWhole m hm)).1
    default_isWhole := fun m hm => (isWhole_written.1 (hcreated.isWhole m hm)).2
    columns_differ := fun m hm => (hthere m hm).2
    tables_differ := ?_
    index_isFree := fun m hm f hf n hn => ?_ }
  · refine List.pairwise_map.2 ((List.pairwise_map.1 hsound.tables_nodup).imp_of_mem fun {m n} hm hn hne => ?_)
    exact hcreated.areListed.differ (hthere m hm).1 (hthere n hn).1 fun he => hne (congrArg ListedTable.name he)
  · exact (Inventory.not_hasTable.1 (hcreated.index_isFree (m, f) (mem_indexed.2 ⟨hm, hf⟩)) n.listed
      (hthere n hn).1).symm

end Model

/-- **What was extracted migrates just if the engine takes it.** On any engine
that does what is expected of one, and where it has a say on the statements, the
models of each provider can be created in an empty database, and are all there
then, exactly if every name in them is a name where it stands, every unique group
has columns, no default ends the text, and names that are the same to the engine
are not used for two columns of a table, for two tables, or for an index and a
table. -/
theorem migrates_iff (he : e.Speaks w list) {d : Declarations} {r : Registry} (h : extract d = .ok r)
    (provider : String) {o : DdlOptions} (hguard : o.ifNotExists = true) (ho : o.emitIndexes = true)
    (hw : ∀ s ∈ Model.statements (r.modelsOf provider) o, w.Decides s) {c : Connection δ}
    (hempty : list c.database = {}) :
    (SchemaPlan.ofModels (r.modelsOf provider) o).Migrates e c ↔
      Model.AreCreatable w o (r.modelsOf provider) := by
  obtain ⟨hnone, rfl⟩ := Extraction.errors_of_extract h
  have hsound := (Extraction.isSound_of_errors_eq_nil hnone).areSound provider
  exact ⟨Model.areCreatable_of_migrates he hsound hw ho hempty,
    fun hc => Model.migrates_of_areCreatable he hsound.each_isSound hc hw ho hguard hempty⟩

/-- Tickets in the order in which they are taken. The column has the name of a
word of SQL. -/
def ticketDeclarations : Declarations where
  providers := [⟨"shop", ProviderKind.localRoot, none, none⟩]
  models :=
    [{ name := "Ticket", table := some "tickets", packagePath := some "crate::shop",
        provider := some "shop",
        members :=
          [⟨"id", some "i64", some { isPrimaryKey := true }, false⟩,
            ⟨"order", some "i64", some {}, false⟩] }]

theorem migrates_iff_library_tickets :
    (∃ r, extract libraryDeclarations = .ok r ∧
      (SchemaPlan.ofModels (r.modelsOf "library") { ifNotExists := true, emitIndexes := true }).Migrates
        Engine.embedded ⟨.empty, 0⟩) ∧
      ∃ r, extract ticketDeclarations = .ok r ∧
        ¬(SchemaPlan.ofModels (r.modelsOf "shop") { ifNotExists := true, emitIndexes := true }).Migrates
          Engine.embedded ⟨.empty, 0⟩ := by
  have hlibrary := extract_of_errors_eq_nil
    (show (Extraction.findings libraryDeclarations).errors = [] by decide +kernel)
  have htickets := extract_of_errors_eq_nil
    (show (Extraction.findings ticketDeclarations).errors = [] by decide +kernel)
  have hempty : Database.empty.inventory = {} := rfl
  refine ⟨⟨_, hlibrary, ?_⟩, ⟨_, htickets, ?_⟩⟩
  · exact (migrates_iff Engine.embedded_speaks hlibrary "library" rfl rfl (by decide +kernel) hempty).2
      (by decide +kernel)
  · exact mt (migrates_iff Engine.embedded_speaks htickets "shop" rfl rfl (by decide +kernel) hempty).1
      (by decide +kernel)

end TypedTables

import TypedTables.Proofs.Schema.Migration
/-!
# TypedTables — names of indexes

The name of an index is put together from the names of its table and its column,
with a sign between them that both of these may contain. Extraction tells tables
apart, and the columns of each table, but not the names made of them: where one
table is called like another with the start of an indexed column, two indexes
get the same name. An engine then creates the first of them only, or none at
all.
-/

namespace TypedTables

open Keyword (Differ)

namespace Model

variable {ms ns : List Model} {m : Model} {o : DdlOptions}

/-- The names of the indexes of models, in the order of their statements. -/
def indexNames (ms : List Model) : List String :=
  (indexed ms).map fun p => indexName p.1.tableName p.2.columnName

/-- **Tables that overlap**: one is called like another with an end, and with
the same end an indexed column of the other goes on where it starts. -/
def Overlap (ms : List Model) : Prop :=
  ∃ m ∈ ms, ∃ n ∈ ms, ∃ f ∈ m.indexedFields, ∃ g ∈ n.indexedFields, ∃ x : String,
    n.tableName = m.tableName ++ "_" ++ x ∧ f.columnName = x ++ "_" ++ g.columnName

/-- A statement for an index starts with its name. -/
theorem exists_createIndex_eq (m : Model) (o : DdlOptions) (f : Field) : ∃ rest, m.createIndex o f =
    "CREATE INDEX " ++ o.guard ++ indexName m.tableName f.columnName ++ " ON " ++ rest := by
  have hjoin (a b c d e : String) : a ++ b ++ c ++ d ++ e = a ++ (b ++ (c ++ (d ++ e))) := by
    simp only [String.append_assoc]
  exact ⟨m.tableName ++ ("(" ++ (f.columnName ++ ")")), hjoin _ _ _ _ _⟩

theorem flatMap_createIndexes (ho : o.emitIndexes = true) :
    ms.flatMap (·.createIndexes o) = (indexed ms).map fun p => p.1.createIndex o p.2 := by
  simp only [indexed, List.map_flatMap, List.map_map, createIndexes, ho, if_true]
  rfl

/-! ## Names that are put together -/

/-- Lists that are joined by the same sign are equal in parts, or one of the two
has a sign more before the one it is joined by. -/
theorem append_sign_eq_iff {α : Type} {sign : α} {a b c d : List α} : a ++ sign :: b = c ++ sign :: d ↔
    a = c ∧ b = d ∨ (∃ x, c = a ++ sign :: x ∧ b = x ++ sign :: d) ∨
      ∃ x, a = c ++ sign :: x ∧ d = x ++ sign :: b := by
  rw [List.append_eq_append_iff]
  constructor
  · rintro (⟨x, rfl, h⟩ | ⟨x, rfl, h⟩)
    · rcases x with _ | ⟨e, x⟩
      · exact .inl ⟨(List.append_nil a).symm, (List.cons.inj h).2⟩
      · obtain ⟨rfl, rfl⟩ := List.cons.inj h
        exact .inr (.inl ⟨x, rfl, rfl⟩)
    · rcases x with _ | ⟨e, x⟩
      · exact .inl ⟨List.append_nil c, (List.cons.inj h).2.symm⟩
      · obtain ⟨rfl, rfl⟩ := List.cons.inj h
        exact .inr (.inr ⟨x, rfl, rfl⟩)
  · rintro (⟨rfl, rfl⟩ | ⟨x, rfl, rfl⟩ | ⟨x, rfl, rfl⟩)
    · exact .inl ⟨[], (List.append_nil a).symm, rfl⟩
    · exact .inl ⟨sign :: x, rfl, rfl⟩
    · exact .inr ⟨sign :: x, rfl, rfl⟩

/-- **Two indexes have one name** if their tables and columns are the same, or
the longer one of the tables takes its end from the column of the other. -/
theorem indexName_eq_iff {t c u d : String} : indexName t c = indexName u d ↔
    t = u ∧ c = d ∨ (∃ x, u = t ++ "_" ++ x ∧ c = x ++ "_" ++ d) ∨
      ∃ x, t = u ++ "_" ++ x ∧ d = x ++ "_" ++ c := by
  have hsign : "_".toList = ['_'] := by decide +kernel
  have hname : indexName t c = indexName u d ↔
      t.toList ++ '_' :: c.toList = u.toList ++ '_' :: d.toList := by
    rw [← String.toList_inj, indexName_toList, indexName_toList]
    simp
  have hsurjective : Function.Surjective String.toList := fun l => ⟨String.ofList l, String.toList_ofList⟩
  rw [hname, append_sign_eq_iff, hsurjective.exists, hsurjective.exists]
  simp only [← String.toList_inj, String.toList_append, hsign, List.append_assoc, List.singleton_append]

/-- An index is told from all others by its table and its column. -/
theorem pairwise_indexed (hs : AreSound ms) : (indexed ms).Pairwise fun p q =>
    p.1.tableName = q.1.tableName → p.2.columnName ≠ q.2.columnName := by
  refine List.pairwise_flatMap.2 ⟨fun m hm => ?_, ?_⟩
  · have hcolumns : m.fields.Pairwise fun f g => f.columnName ≠ g.columnName :=
      List.pairwise_map.1 (hs.each_isSound m hm).columns_nodup
    have hindexed : m.indexedFields.Pairwise fun f g => f.columnName ≠ g.columnName :=
      hcolumns.sublist List.filter_sublist
    exact List.pairwise_map.2 (hindexed.imp fun hne (_ : m.tableName = m.tableName) => hne)
  · refine (List.pairwise_map.1 hs.tables_nodup).imp fun {m n} hne p hp q hq htable => ?_
    obtain ⟨f, -, rfl⟩ := List.mem_map.1 hp
    obtain ⟨g, -, rfl⟩ := List.mem_map.1 hq
    exact absurd htable hne

/-- **The names of indexes are different just if no tables overlap.** -/
theorem nodup_indexNames_iff (hs : AreSound ms) : (indexNames ms).Nodup ↔ ¬Overlap ms := by
  constructor
  · rintro hnodup ⟨m, hm, n, hn, f, hf, g, hg, x, htable, hcolumn⟩
    have hname : indexName m.tableName f.columnName = indexName n.tableName g.columnName :=
      indexName_eq_iff.2 (.inr (.inl ⟨x, htable, hcolumn⟩))
    have hsame : (m, f) = (n, g) := List.inj_on_of_nodup_map hnodup (mem_indexed.2 ⟨hm, hf⟩)
      (mem_indexed.2 ⟨hn, hg⟩) hname
    rw [← (Prod.mk.inj hsame).1] at htable
    have hlength := congrArg String.length htable
    have hsign : "_".length = 1 := by decide +kernel
    rw [String.length_append, String.length_append, hsign] at hlength
    omega
  · intro hnone
    refine List.pairwise_map.2 ((pairwise_indexed hs).imp_of_mem fun {p q} hp hq hne hname => hnone ?_)
    obtain ⟨hp, hf⟩ := mem_indexed.1 hp
    obtain ⟨hq, hg⟩ := mem_indexed.1 hq
    rcases indexName_eq_iff.1 hname with ⟨htable, hcolumn⟩ | ⟨x, htable, hcolumn⟩ | ⟨x, htable, hcolumn⟩
    · exact absurd hcolumn (hne htable)
    -- either of the two may be the one with the longer name
    · exact ⟨p.1, hp, q.1, hq, p.2, hf, q.2, hg, x, htable, hcolumn⟩
    · exact ⟨q.1, hq, p.1, hp, q.2, hg, p.2, hf, x, htable, hcolumn⟩

/-! ## Creating the indexes -/

/-- **Every index that models declare is there.** -/
def HaveIndexes (ms : List Model) (v : Inventory) : Prop :=
  ∀ m ∈ ms, ∀ f ∈ m.indexedFields, m.listedIndex f ∈ v.indexes

variable {δ : Type} {e : Engine δ} {w : Dialect} {list : δ → Inventory} {c c' : Connection δ}

/-- **Indexes with different names are all created**, whether or not one may be
there already. -/
theorem exists_haveIndexes (he : e.Speaks w list) (hs : ∀ m ∈ ms, m.IsSound) (ho : o.emitIndexes = true)
    (h : AreCreatable w o ms) (hfits : ∀ s ∈ statements ms o, w.fits s)
    (hdiffer : (indexNames ms).Pairwise Differ) (hc : list c.database = { tables := ms.map listed }) :
    ∃ c', Migration.runScripts e .notCreated
      ((indexed ms).map fun p => (SchemaStatement.index (p.1.writtenIndex o p.2)).sql) c = (.ok (), c') ∧
        HaveIndexes ms (list c'.database) := by
  obtain ⟨c', hrun, hc'⟩ : ∃ c', Migration.runScripts e .notCreated
      ((indexed ms).map fun p => (SchemaStatement.index (p.1.writtenIndex o p.2)).sql) c = (.ok (), c') ∧
        list c'.database = ⟨ms.map listed, (indexed ms).map fun p => p.1.listedIndex p.2⟩ := by
    refine Migration.exists_runScripts
      (I := fun placed d => list d = ⟨ms.map listed, placed.map fun p : Model × Field => p.1.listedIndex p.2⟩) hc
      fun before p after heq c hc => ?_
    have hp : p ∈ indexed ms := heq ▸ List.mem_append_right before List.mem_cons_self
    have htables : (list c.database).tables = ms.map listed := congrArg Inventory.tables hc
    have hnew : ¬(list c.database).HasIndex (p.1.listedIndex p.2).name := by
      rw [hc, Inventory.not_hasIndex]
      refine List.forall_mem_map.2 fun q hq => ?_
      have hnames := List.pairwise_map.1 hdiffer
      rw [heq, List.pairwise_append] at hnames
      exact hnames.2.2 q hq p List.mem_cons_self
    obtain ⟨c', hrun⟩ := exists_run_index he hs ho h hfits hp htables hnew
    refine ⟨c', hrun, ?_⟩
    obtain ⟨-, hthere, -⟩ | ⟨-, hadds⟩ := cases_of_run_index he hs ho h hp htables hrun
    · exact absurd hthere hnew
    · rw [hadds, hc, List.map_append]
      rfl
  refine ⟨c', hrun, fun m hm f hf => ?_⟩
  rw [hc']
  exact List.mem_map.2 ⟨(m, f), mem_indexed.2 ⟨hm, hf⟩, rfl⟩

/-- **What is there while indexes are created**: the tables, and indexes of
different names. None of those created so far is missing if none was allowed to
be there. -/
structure AreIndexed (o : DdlOptions) (ms : List Model) (created : List (Model × Field)) (v : Inventory) :
    Prop where
  tables_eq : v.tables = ms.map listed
  names_differ : v.indexes.Pairwise fun i j => Differ i.name j.name
  listed_mem : o.ifNotExists = false → ∀ p ∈ created, p.1.listedIndex p.2 ∈ v.indexes

/-- **One index more.** -/
theorem AreIndexed.snoc (he : e.Speaks w list) (hs : ∀ m ∈ ms, m.IsSound) (ho : o.emitIndexes = true)
    (h : AreCreatable w o ms) {created : List (Model × Field)} {p : Model × Field} (hp : p ∈ indexed ms)
    (hc : AreIndexed o ms created (list c.database))
    (hrun : e.script (SchemaStatement.index (p.1.writtenIndex o p.2)).sql c = (.ok (), c')) :
    AreIndexed o ms (created ++ [p]) (list c'.database) := by
  obtain ⟨hguard, -, rfl⟩ | ⟨hnew, hadds⟩ := cases_of_run_index he hs ho h hp hc.tables_eq hrun
  -- an index of this name was there, which may be one of another field
  · refine ⟨hc.tables_eq, hc.names_differ, fun hfalse => ?_⟩
    rw [hguard] at hfalse
    cases hfalse
  · rw [hadds]
    refine ⟨hc.tables_eq, ?_, fun hfalse => List.forall_mem_append.2 ⟨fun q hq => ?_, ?_⟩⟩
    · refine List.pairwise_append.2 ⟨hc.names_differ, List.pairwise_singleton _ _, fun i hi j hj => ?_⟩
      rw [List.mem_singleton.1 hj]
      exact Inventory.not_hasIndex.1 hnew i hi
    · exact List.mem_append_left _ (hc.listed_mem hfalse q hq)
    · exact List.forall_mem_singleton.2 (List.mem_append_right _ (List.mem_singleton_self _))

/-- **What is there once the statements have run.** -/
theorem areIndexed_of_run_indexes (he : e.Speaks w list) (hs : ∀ m ∈ ms, m.IsSound) (ho : o.emitIndexes = true)
    (h : AreCreatable w o ms) (hc : list c.database = { tables := ms.map listed })
    (hrun : Migration.runScripts e .notCreated
      ((indexed ms).map fun p => (SchemaStatement.index (p.1.writtenIndex o p.2)).sql) c = (.ok (), c')) :
    AreIndexed o ms (indexed ms) (list c'.database) := by
  have hstart : AreIndexed o ms [] (list c.database) := by
    rw [hc]
    exact ⟨rfl, .nil, fun _ _ hp => nomatch hp⟩
  refine Migration.of_runScripts (I := fun created d => AreIndexed o ms created (list d)) hstart hrun
    fun before p after heq c c' hc hscript => hc.snoc he hs ho h ?_ hscript
  exact heq ▸ List.mem_append_right before List.mem_cons_self

theorem AreIndexed.haveIndexes {v : Inventory} (h : AreIndexed o ms (indexed ms) v) (hguard : o.ifNotExists = false) :
    HaveIndexes ms v := fun m hm f hf => h.listed_mem hguard (m, f) (mem_indexed.2 ⟨hm, hf⟩)

/-- Where all indexes are there and have different names, so have the fields
they are on. -/
theorem differ_of_haveIndexes {v : Inventory} (hs : AreSound ms) (hall : HaveIndexes ms v)
    (hnames : v.indexes.Pairwise fun i j => Differ i.name j.name) : (indexNames ms).Pairwise Differ := by
  refine List.pairwise_map.2 ((pairwise_indexed hs).imp_of_mem fun {p q} hp hq hne => ?_)
  obtain ⟨hp, hf⟩ := mem_indexed.1 hp
  obtain ⟨hq, hg⟩ := mem_indexed.1 hq
  have hdiffer : Differ (p.1.listedIndex p.2).name (q.1.listedIndex q.2).name := by
    refine hnames.forall (hall p.1 hp p.2 hf) (hall q.1 hq q.2 hg) fun hsame => ?_
    have htable : p.1.tableName = q.1.tableName := congrArg ListedIndex.table hsame
    have hcolumns : [p.2.columnName] = [q.2.columnName] := congrArg ListedIndex.columns hsame
    exact hne htable (List.cons.inj hcolumns).1
  exact hdiffer

/-- The order of models does not matter for their indexes. -/
theorem differ_creationOrder :
    (indexNames (creationOrder ms)).Pairwise Differ ↔ (indexNames ms).Pairwise Differ :=
  (((creationOrder_perm ms).flatMap_right _).map _).pairwise_iff fun h => Differ.symm h

theorem haveIndexes_creationOrder {v : Inventory} : HaveIndexes (creationOrder ms) v ↔ HaveIndexes ms v :=
  ⟨fun h m hm => h m ((creationOrder_perm ms).mem_iff.2 hm),
    fun h m hm => h m ((creationOrder_perm ms).mem_iff.1 hm)⟩

/-- Creating the tables of creatable models always succeeds, so that what a plan
does is what its indexes do. -/
theorem exists_up_iff (he : e.Speaks w list) (hs : ∀ m ∈ ms, m.IsSound) (h : AreCreatable w o ms)
    (hfits : ∀ s ∈ statements ms o, w.fits s) (ho : o.emitIndexes = true) (hempty : list c.database = {}) :
    ∃ c₁ : Connection δ, list c₁.database = { tables := (creationOrder ms).map listed } ∧
      ∀ c', Migration.up e (SchemaPlan.ofModels ms o) c = (.ok (), c') ↔
        Migration.runScripts e .notCreated ((indexed (creationOrder ms)).map fun p =>
          (SchemaStatement.index (p.1.writtenIndex o p.2)).sql) c₁ = (.ok (), c') := by
  have hperm := creationOrder_perm ms
  obtain ⟨c₁, htables, hc₁⟩ := exists_run_tables he
    (fun m hm => hs m (hperm.mem_iff.1 hm)) ((areCreatable_perm hperm).2 h)
    (fun s hmem => hfits s ((statements_perm hperm).mem_iff.1 hmem)) hempty
  refine ⟨c₁, hc₁, fun c' => (up_eq_ok he hs ho).trans ⟨?_, fun hrun => ⟨c₁, htables, hrun⟩⟩⟩
  rintro ⟨c₂, htables', hrun⟩
  rw [htables] at htables'
  obtain ⟨-, rfl⟩ := Prod.mk.inj htables'
  exact hrun

/-- **What the indexes of creatable models come to**: where one may be there
already, none is missed just if all names differ; where none may, the plan
succeeds just if they do. -/
theorem up_indexes_iff (he : e.Speaks w list) (hs : AreSound ms) (h : AreCreatable w o ms)
    (hfits : ∀ s ∈ statements ms o, w.fits s) (ho : o.emitIndexes = true) (hempty : list c.database = {}) :
    (o.ifNotExists = true → ∃ after, Migration.up e (SchemaPlan.ofModels ms o) c = (.ok (), after) ∧
      (HaveIndexes ms (list after.database) ↔ (indexNames ms).Pairwise Differ)) ∧
    (o.ifNotExists = false → ((∃ after, Migration.up e (SchemaPlan.ofModels ms o) c = (.ok (), after)) ↔
      (indexNames ms).Pairwise Differ)) := by
  have hperm := creationOrder_perm ms
  have hsound := hs.perm hperm
  have hcreatable := (areCreatable_perm hperm).2 h
  have hfits' : ∀ s ∈ statements (creationOrder ms) o, w.fits s := fun s hmem =>
    hfits s ((statements_perm hperm).mem_iff.1 hmem)
  obtain ⟨c₁, hc₁, hup⟩ := exists_up_iff he hs.each_isSound h hfits ho hempty
  have hall (hdiffer : (indexNames ms).Pairwise Differ) :=
    exists_haveIndexes he hsound.each_isSound ho hcreatable hfits'
      (differ_creationOrder.2 hdiffer) hc₁
  constructor
  · intro hguard
    obtain ⟨after, hrun, -⟩ := exists_run_indexes he hsound.each_isSound ho hguard
      hcreatable hfits' hc₁
    have hindexed := areIndexed_of_run_indexes he hsound.each_isSound ho hcreatable hc₁ hrun
    refine ⟨after, (hup after).2 hrun, fun hthere => ?_, fun hdiffer => ?_⟩
    · exact differ_creationOrder.1
        (differ_of_haveIndexes hsound (haveIndexes_creationOrder.2 hthere) hindexed.names_differ)
    · obtain ⟨after', hrun', hthere⟩ := hall hdiffer
      rw [hrun] at hrun'
      obtain ⟨-, rfl⟩ := Prod.mk.inj hrun'
      exact haveIndexes_creationOrder.1 hthere
  · intro hguard
    simp only [hup]
    constructor
    · rintro ⟨after, hrun⟩
      have hindexed := areIndexed_of_run_indexes he hsound.each_isSound ho hcreatable hc₁ hrun
      exact differ_creationOrder.1
        (differ_of_haveIndexes hsound (hindexed.haveIndexes hguard) hindexed.names_differ)
    · intro hdiffer
      obtain ⟨after, hrun, -⟩ := hall hdiffer
      exact ⟨after, hrun⟩

end Model

/-- **When index names are different.** For the models of each provider of what
was extracted, the names in the statements for their indexes are different just
if no tables overlap. On an empty database of any engine that does what is
expected of one and takes the tables, a plan that allows for what is there
creates all of the indexes, and a plan that does not succeeds at all, just if the
engine tells these names apart. -/
theorem index_names_differ_iff {d : Declarations} {r : Registry} (h : extract d = .ok r) (provider : String) :
    (∀ o : DdlOptions, o.emitIndexes = true → List.Forall₂
      (fun statement name => ∃ rest, statement = "CREATE INDEX " ++ o.guard ++ name ++ " ON " ++ rest)
      ((r.modelsOf provider).flatMap (·.createIndexes o)) (Model.indexNames (r.modelsOf provider))) ∧
    ((Model.indexNames (r.modelsOf provider)).Nodup ↔ ¬Model.Overlap (r.modelsOf provider)) ∧
    ∀ {δ : Type} {e : Engine δ} {w : Dialect} {list : δ → Inventory}, e.Speaks w list →
      ∀ o : DdlOptions, o.emitIndexes = true → Model.AreCreatable w o (r.modelsOf provider) →
        (∀ s ∈ Model.statements (r.modelsOf provider) o, w.fits s) →
          ∀ c : Connection δ, list c.database = {} →
      (o.ifNotExists = true →
        ∃ after, Migration.up e (SchemaPlan.ofModels (r.modelsOf provider) o) c = (.ok (), after) ∧
          (Model.HaveIndexes (r.modelsOf provider) (list after.database) ↔
            (Model.indexNames (r.modelsOf provider)).Pairwise Differ)) ∧
      (o.ifNotExists = false →
        ((∃ after, Migration.up e (SchemaPlan.ofModels (r.modelsOf provider) o) c = (.ok (), after)) ↔
          (Model.indexNames (r.modelsOf provider)).Pairwise Differ)) := by
  have hsound : Model.AreSound (r.modelsOf provider) := by
    obtain ⟨hnone, rfl⟩ := Extraction.errors_of_extract h
    exact (Extraction.isSound_of_errors_eq_nil hnone).areSound provider
  refine ⟨?_, Model.nodup_indexNames_iff hsound, ?_⟩
  · intro o ho
    rw [Model.flatMap_createIndexes ho, Model.indexNames, List.forall₂_map_left_iff,
      List.forall₂_map_right_iff, List.forall₂_same]
    exact fun p _ => p.1.exists_createIndex_eq o p.2
  · intro δ e w list he o ho hc hfits c hempty
    exact Model.up_indexes_iff he hsound hc hfits ho hempty

/-- Users and their roles. The role's name is indexed in both tables. -/
def roleDeclarations : Declarations where
  providers := [⟨"accounts", ProviderKind.localRoot, none, none⟩]
  models :=
    [{ name := "User", table := some "user", packagePath := some "crate::accounts",
        provider := some "accounts",
        members :=
          [⟨"id", some "i64", some { isPrimaryKey := true }, false⟩,
            ⟨"role_name", some "String", some { isIndexed := true }, false⟩] },
      { name := "UserRole", table := some "user_role", packagePath := some "crate::accounts",
        provider := some "accounts",
        members :=
          [⟨"id", some "i64", some { isPrimaryKey := true }, false⟩,
            ⟨"name", some "String", some { isIndexed := true }, false⟩] }]

/-- Both are called `idx_user_role_name`. -/
theorem index_names_differ_iff_roles : ∃ r, extract roleDeclarations = .ok r ∧
    ¬(Model.indexNames (r.modelsOf "accounts")).Nodup ∧
    (∃ after, Migration.up Engine.embedded (SchemaPlan.ofModels (r.modelsOf "accounts")
      { ifNotExists := true, emitIndexes := true }) ⟨.empty, 0⟩ = (.ok (), after) ∧
        ¬Model.HaveIndexes (r.modelsOf "accounts") after.database.inventory) ∧
    ¬∃ after, Migration.up Engine.embedded (SchemaPlan.ofModels (r.modelsOf "accounts")
      { ifNotExists := false, emitIndexes := true }) ⟨.empty, 0⟩ = (.ok (), after) := by
  have h := extract_of_errors_eq_nil
    (show (Extraction.findings roleDeclarations).errors = [] by decide +kernel)
  obtain ⟨r, hr⟩ : ∃ r, Extraction.register (Extraction.findings roleDeclarations).result.1
      (Extraction.findings roleDeclarations).result.2 = r := ⟨_, rfl⟩
  have hnames : Model.indexNames (r.modelsOf "accounts") = ["idx_user_role_name", "idx_user_role_name"] := by
    rw [← hr]
    decide +kernel
  have htaken : ∀ guard, Model.AreCreatable Dialect.embedded ⟨guard, true⟩ (r.modelsOf "accounts") ∧
      ∀ s ∈ Model.statements (r.modelsOf "accounts") ⟨guard, true⟩, Dialect.embedded.fits s := by
    rw [← hr]
    decide +kernel
  rw [hr] at h
  have hsame : ¬(Model.indexNames (r.modelsOf "accounts")).Pairwise Differ := by
    rw [hnames]
    decide +kernel
  obtain ⟨-, -, hmigrates⟩ := index_names_differ_iff h "accounts"
  have hup (guard : Bool) := hmigrates Engine.embedded_speaks ⟨guard, true⟩ rfl (htaken guard).1 (htaken guard).2
    ⟨.empty, 0⟩ rfl
  obtain ⟨after, hok, hall⟩ := (hup true).1 rfl
  exact ⟨r, h, hnames ▸ by decide +kernel, ⟨after, hok, mt hall.1 hsame⟩, mt ((hup false).2 rfl).1 hsame⟩

end TypedTables

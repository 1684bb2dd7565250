import TypedTables.Command.Run
import TypedTables.Proofs.Schema.IndexName
/-!
# TypedTables — plans of the command line

The command line makes one plan of the models of a local provider, or of those
of all local providers. Extraction sees to it that the tables of one provider
have different names, and to nothing beyond: where two providers have a table of
one name, the plan has it twice. An engine then keeps the table of the model
that comes first, and says nothing of the other.
-/

namespace TypedTables

open Keyword (Differ)

variable {r : Registry} {m n : Model} {ms : List Model} {o : DdlOptions} {provider : Option String}

/-! ## The models of a plan -/

/-- **The models that a plan is asked for**: those of local providers, and of
the given one if there is one. -/
structure Registry.Selects (r : Registry) (provider : Option String) (ms : List Model) : Prop where
  nodup : ms.Nodup
  mem_iff : ∀ m, m ∈ ms ↔
    m ∈ r.models.values ∧ m.provider.kind = .local ∧ ∀ name ∈ provider, m.provider.name = name

namespace Registry

theorem IsSound.values_nodup (hr : r.IsSound) : r.models.values.Nodup :=
  hr.modules_nodup.of_map _

/-- What is found for the command line is what was asked for. -/
theorem IsSound.selects_of_localModels (hr : r.IsSound) (h : Command.localModels r provider = .ok ms) :
    r.Selects provider ms := by
  rcases provider with _ | name
  · obtain rfl := Except.ok.inj h
    refine ⟨hr.values_nodup.filter _, fun m => ?_⟩
    simp
  · unfold Command.localModels at h
    simp only at h
    split at h
    · nomatch h
    case h_2 p hp =>
      split at h
      case isFalse => nomatch h
      case isTrue hkind =>
        obtain rfl := Except.ok.inj h
        refine ⟨hr.values_nodup.filter _, fun m => ?_⟩
        -- the provider of a model is the registered one, which is local
        have hlocal : m ∈ r.models.values → m.provider.name = name → m.provider.kind = .local := by
          intro hm hname
          have hregistered := hr.provider_isRegistered m hm
          rw [hname, hp] at hregistered
          exact Option.some.inj hregistered ▸ hkind
        simp only [modelsOf, List.mem_filter, beq_iff_eq, Option.mem_some_iff, forall_eq']
        constructor
        · exact fun ⟨hm, hname⟩ => ⟨hm, hlocal hm hname, hname⟩
        · exact fun ⟨hm, _, hname⟩ => ⟨hm, hname⟩

namespace Selects

variable (h : r.Selects provider ms)
include h

theorem mem_values (hm : m ∈ ms) : m ∈ r.models.values := ((h.mem_iff m).1 hm).1

theorem isSound (hr : r.IsSound) : ∀ m ∈ ms, m.IsSound :=
  fun m hm => hr.models_areSound m (h.mem_values hm)

/-- **Tables of selected models are different just if providers share none.** -/
theorem nodup_tables_iff (hr : r.IsSound) : (ms.map (·.tableName)).Nodup ↔
    ∀ m ∈ ms, ∀ n ∈ ms, m.tableName = n.tableName → m.provider.name = n.provider.name := by
  constructor
  · intro hnodup m hm n hn htable
    rw [List.inj_on_of_nodup_map hnodup hm hn htable]
  · intro hshare
    refine h.nodup.map_on fun m hm n hn htable => ?_
    exact hr.eq_of_table (h.mem_values hm) (h.mem_values hn) (hshare m hm n hn htable) htable

end Selects

end Registry

/-! ## The statements of a plan -/

/-- Whether a statement creates a table. -/
def SchemaPlan.createsTable (statement : String) : Bool :=
  "CREATE TABLE ".toList.isPrefixOf statement.toList

namespace Model

theorem createsTable_createTable (m : Model) (o : DdlOptions) :
    SchemaPlan.createsTable (m.createTable o) = true := by
  have hjoin (a b c d e f : String) : a ++ b ++ c ++ d ++ e ++ f = a ++ (b ++ (c ++ (d ++ (e ++ f)))) := by
    simp only [String.append_assoc]
  obtain ⟨rest, hrest⟩ : ∃ rest, m.createTable o = "CREATE TABLE " ++ rest := ⟨_, hjoin _ _ _ _ _ _⟩
  rw [hrest, SchemaPlan.createsTable, List.isPrefixOf_iff_prefix, String.toList_append]
  exact List.prefix_append _ _

theorem createsTable_createIndex (m : Model) (o : DdlOptions) (f : Field) :
    SchemaPlan.createsTable (m.createIndex o f) = false := by
  -- the two kinds of statements differ after their first word
  have htable : "CREATE TABLE ".toList = "CREATE ".toList ++ 'T' :: "ABLE ".toList := by decide +kernel
  have hindex : "CREATE INDEX ".toList = "CREATE ".toList ++ 'I' :: "NDEX ".toList := by decide +kernel
  have hstart (rest : String) : SchemaPlan.createsTable ("CREATE INDEX " ++ rest) = false := by
    rw [Bool.eq_false_iff, ne_eq, SchemaPlan.createsTable, List.isPrefixOf_iff_prefix,
      String.toList_append, hindex, htable, List.append_assoc, List.prefix_append_right_inj,
      List.cons_append, List.cons_prefix_cons]
    exact fun h => absurd h.1 (by decide)
  have hjoin (a b c d e : String) : a ++ b ++ c ++ d ++ e = a ++ (b ++ (c ++ (d ++ e))) := by
    simp only [String.append_assoc]
  obtain ⟨rest, hrest⟩ := m.exists_createIndex_eq o f
  rw [hrest, hjoin]
  exact hstart _

/-- **A plan creates one table for each model**, whatever else it does. -/
theorem filter_createsTable_perm (ms : List Model) (o : DdlOptions) :
    ((SchemaPlan.ofModels ms o).statements.filter SchemaPlan.createsTable).Perm
      (ms.map (·.createTable o)) := by
  have htables : ∀ s ∈ (creationOrder ms).map (·.createTable o), SchemaPlan.createsTable s = true := by
    intro s hs
    obtain ⟨m, -, rfl⟩ := List.mem_map.1 hs
    exact createsTable_createTable m o
  have hindexes : ∀ s ∈ (creationOrder ms).flatMap (·.createIndexes o), ¬SchemaPlan.createsTable s = true := by
    intro s hs
    obtain ⟨m, -, hs⟩ := List.mem_flatMap.1 hs
    unfold createIndexes at hs
    split at hs
    · obtain ⟨f, -, rfl⟩ := List.mem_map.1 hs
      rw [createsTable_createIndex]
      exact Bool.false_ne_true
    · nomatch hs
  rw [SchemaPlan.ofModels, List.filter_append, List.filter_eq_self.2 htables, List.filter_eq_nil_iff.2 hindexes,
    List.append_nil]
  exact (creationOrder_perm ms).map _

end Model

/-! ## The tables that are created -/

namespace Model

/-- **Every model has a table of its own**: its columns, and no rows yet. -/
def HaveTables (ms : List Model) (v : Inventory) : Prop :=
  (∀ m ∈ ms, m.listed ∈ v.tables) ∧ (ms.map listed).Nodup

variable {δ : Type} {e : Engine δ} {w : Dialect} {list : δ → Inventory} {c c' : Connection δ}
  {ofFault : EngineFault → DatabaseError}

/-- **Tables with different names are all created** if their statements succeed,
by induction on the statements: none finds its table there already. -/
theorem tables_of_run (he : e.Speaks w list) (hs : ∀ m ∈ ms, m.IsSound)
    (hw : ∀ m ∈ ms, w.Decides (.table (m.written o))) (hdiffer : (ms.map (·.tableName)).Pairwise Differ)
    (hempty : list c.database = {})
    (hrun : Migration.runScripts e ofFault (ms.map fun m => (SchemaStatement.table (m.written o)).sql) c =
      (.ok (), c')) : (list c'.database).tables = ms.map listed := by
  have hnone : (list c.database).tables = [] := by rw [hempty]
  refine Migration.of_runScripts (I := fun placed d => (list d).tables = placed.map listed) hnone hrun
    fun before m after heq c c' hc hscript => ?_
  have hm : m ∈ ms := heq ▸ List.mem_append_right before List.mem_cons_self
  have hspelled : (SchemaStatement.table (m.written o)).IsSpelled := isSpelled_written (hs m hm)
  have hnew : ¬(list c.database).HasTable m.tableName := by
    rw [Inventory.not_hasTable, hc]
    refine List.forall_mem_map.2 fun n hn => ?_
    have hnames := List.pairwise_map.1 hdiffer
    rw [heq, List.pairwise_append] at hnames
    exact hnames.2.2 n hn m List.mem_cons_self
  obtain ⟨-, ⟨-, hthere, -⟩ | ⟨hfree, -⟩⟩ := he.effect hspelled hscript
  · exact absurd hthere hnew
  · have htakes := (he.takes_of_script hspelled (hw m hm) hscript).1
    obtain ⟨-, hadds⟩ := he.effect_asWritten hspelled htakes hfree trivial hscript
    rw [hadds, hc, columnNames_written, List.map_append]
    rfl

/-- **When each model has a table of its own** after a plan that succeeded: if the
engine tells the names of the tables apart, and not otherwise. -/
theorem haveTables_iff (he : e.Speaks w list) (hs : ∀ m ∈ ms, m.IsSound)
    (hw : ∀ s ∈ statements ms o, w.Decides s) (ho : o.emitIndexes = true) (hempty : list c.database = {})
    (hup : Migration.up e (SchemaPlan.ofModels ms o) c = (.ok (), c')) :
    HaveTables ms (list c'.database) ↔ (ms.map (·.tableName)).Pairwise Differ := by
  have hperm := creationOrder_perm ms
  have hsound : ∀ m ∈ creationOrder ms, m.IsSound := fun m hm => hs m (hperm.mem_iff.1 hm)
  have hdecides : ∀ s ∈ statements (creationOrder ms) o, w.Decides s := fun s hmem =>
    hw s ((statements_perm hperm).mem_iff.1 hmem)
  constructor
  · rintro ⟨hthere, hnodup⟩
    have hlisted := (created_of_up he hs hw ho hempty hup).areListed
    exact List.pairwise_map.2 ((List.pairwise_map.1 hnodup).imp_of_mem fun {m n} hm hn hne =>
      hlisted.differ (hthere m hm) (hthere n hn) hne)
  · intro hdiffer
    obtain ⟨c₁, htables, hindexes⟩ := (up_eq_ok he hs ho).1 hup
    have hall := tables_of_run he hsound (fun m hm => hdecides _ (table_mem_statements hm))
      (((hperm.map _).pairwise_iff fun h => Differ.symm h).2 hdiffer) hempty htables
    have hsame := (of_run_indexes he hsound (fun p hp => hdecides _ (index_mem_statements ho hp)) hindexes).2
    refine ⟨fun m hm => ?_, ?_⟩
    · rw [hsame, hall]
      exact List.mem_map_of_mem (hperm.mem_iff.2 hm)
    · have hnames : (ms.map listed).map (·.name) = ms.map (·.tableName) := List.map_map
      have hnodup : ((ms.map listed).map (·.name)).Nodup := by
        rw [hnames]
        exact hdiffer.imp Differ.ne
      exact hnodup.of_map _

end Model

/-! ## Plans of the command line -/

/-- A plan that is made is the plan of some models. -/
theorem Command.localPlan_eq_ok {plan : SchemaPlan} : Command.localPlan r provider o = .ok plan ↔
    ∃ ms, Command.localModels r provider = .ok ms ∧ ms ≠ [] ∧ plan = .ofModels ms o := by
  rw [Command.localPlan, bind_eq_ok]
  refine exists_congr fun ms => and_congr_right fun _ => ?_
  rcases ms with _ | ⟨m, ms⟩
  · exact ⟨fun h => (nomatch h), fun h => absurd rfl h.1⟩
  · exact ⟨fun h => ⟨List.cons_ne_nil m ms, (Except.ok.inj h).symm⟩, fun h => congrArg Except.ok h.2.symm⟩

/-- **When a plan of the command line keeps tables apart.** The plan has the
table of every selected model, and one statement that creates it. The names are
different just if no two providers share one, so they are for a given provider.
On any engine that does what is expected of one, and where it has a say on the
statements, each model has a table of its own after a migration of an empty
database that succeeds, just if the engine tells the names apart; and it does
succeed if the models are creatable. -/
theorem plan_separates_iff {d : Declarations} (h : extract d = .ok r) {plan : SchemaPlan}
    (hplan : Command.localPlan r provider o = .ok plan) :
    ∃ ms, r.Selects provider ms ∧ ms ≠ [] ∧
      plan.tables.Perm (ms.map (·.tableName)) ∧
      (plan.statements.filter SchemaPlan.createsTable).Perm (ms.map (·.createTable o)) ∧
      (plan.tables.Nodup ↔
        ∀ m ∈ ms, ∀ n ∈ ms, m.tableName = n.tableName → m.provider.name = n.provider.name) ∧
      (provider.isSome = true → plan.tables.Nodup) ∧
      ∀ {δ : Type} {e : Engine δ} {w : Dialect} {list : δ → Inventory}, e.Speaks w list →
        o.emitIndexes = true → (∀ s ∈ Model.statements ms o, w.Decides s) →
          ∀ c : Connection δ, list c.database = {} →
        (∀ after, Migration.up e plan c = (.ok (), after) →
          (Model.HaveTables ms (list after.database) ↔ plan.tables.Pairwise Differ)) ∧
        (o.ifNotExists = true → Model.AreCreatable w o ms → ∃ after,
          Migration.up e plan c = (.ok (), after) ∧ Model.HaveTables ms (list after.database)) := by
  obtain ⟨hnone, rfl⟩ := Extraction.errors_of_extract h
  have hr := Extraction.isSound_of_errors_eq_nil hnone
  obtain ⟨ms, hmodels, hne, rfl⟩ := Command.localPlan_eq_ok.1 hplan
  have hselects := hr.selects_of_localModels hmodels
  have htables : (SchemaPlan.ofModels ms o).tables.Perm (ms.map (·.tableName)) :=
    (Model.creationOrder_perm ms).map _
  have hnodup := htables.nodup_iff.trans (hselects.nodup_tables_iff hr)
  refine ⟨ms, hselects, hne, htables, Model.filter_createsTable_perm ms o, hnodup, fun hsome => ?_, ?_⟩
  · obtain ⟨name, rfl⟩ := Option.isSome_iff_exists.1 hsome
    refine hnodup.2 fun m hm n hn _ => ?_
    rw [((hselects.mem_iff m).1 hm).2.2 name rfl, ((hselects.mem_iff n).1 hn).2.2 name rfl]
  · intro δ e w list he ho hw c hempty
    have hsound := hselects.isSound hr
    constructor
    · intro after hup
      rw [Model.haveTables_iff he hsound hw ho hempty hup]
      exact (htables.pairwise_iff fun h => Differ.symm h).symm
    · intro hguard hcreatable
      obtain ⟨after, hup, -⟩ := Model.exists_up he hsound hcreatable (fun s hs => (hw s hs).fits) ho hguard hempty
      exact ⟨after, hup, (Model.haveTables_iff he hsound hw ho hempty hup).2 hcreatable.tables_differ⟩

/-- Tickets at a desk and notes at home. Each provider has a table of one name. -/
def deskDeclarations : Declarations where
  providers := [⟨"desk", ProviderKind.localRoot, none, none⟩, ⟨"home", ProviderKind.localRoot, none, none⟩]
  models :=
    [{ name := "Ticket", table := some "notes", packagePath := some "crate::desk", provider := some "desk",
        members :=
          [⟨"id", some "i64", some { isPrimaryKey := true }, false⟩,
            ⟨"title", some "String", some {}, false⟩] },
      { name := "Diary", table := some "notes", packagePath := some "crate::home", provider := some "home",
        members :=
          [⟨"id", some "i64", some { isPrimaryKey := true }, false⟩,
            ⟨"body", some "String", some {}, false⟩] }]

/-- What the command line plans for both. -/
def deskPlan : SchemaPlan where
  tables := ["notes", "notes"]
  statements :=
    ["CREATE TABLE IF NOT EXISTS notes (id INTEGER PRIMARY KEY, body TEXT)",
      "CREATE TABLE IF NOT EXISTS notes (id INTEGER PRIMARY KEY, title TEXT)"]

/-- The migration succeeds, and there is one table for the two models. -/
theorem plan_separates_iff_desk : ∃ r, extract deskDeclarations = .ok r ∧
    Command.localPlan r none ({} : GeneratorOptions).ddl = .ok deskPlan ∧ ¬deskPlan.tables.Nodup ∧
    ∃ ms after, r.Selects none ms ∧ ms.length = 2 ∧
      Migration.up Engine.embedded deskPlan ⟨.empty, 0⟩ = (.ok (), after) ∧
      ¬Model.HaveTables ms after.database.inventory := by
  have h := extract_of_errors_eq_nil
    (show (Extraction.findings deskDeclarations).errors = [] by decide +kernel)
  have hplan : Command.localPlan (Extraction.register (Extraction.findings deskDeclarations).result.1
      (Extraction.findings deskDeclarations).result.2) none ({} : GeneratorOptions).ddl = .ok deskPlan := by
    decide +kernel
  have hdecides : ∀ s ∈ Model.statements (Extraction.register (Extraction.findings deskDeclarations).result.1
      (Extraction.findings deskDeclarations).result.2).models.values ({} : GeneratorOptions).ddl,
      Dialect.embedded.Decides s := by
    decide +kernel
  have hup : (Migration.up Engine.embedded deskPlan ⟨.empty, 0⟩).1 = .ok () := by decide +kernel
  obtain ⟨ms, hselects, -, htables, -, -, -, hown⟩ := plan_separates_iff h hplan
  have htwice : ¬deskPlan.tables.Pairwise Differ := by decide +kernel
  have hlength : deskPlan.tables.length = ms.length := htables.length_eq.trans (List.length_map _)
  have hw : ∀ s ∈ Model.statements ms ({} : GeneratorOptions).ddl, Dialect.embedded.Decides s := fun s hs =>
    hdecides s (Model.statements_mono (fun _ hm => hselects.mem_values hm) hs)
  rcases hrun : Migration.up Engine.embedded deskPlan ⟨.empty, 0⟩ with ⟨result, after⟩
  rw [hrun] at hup
  obtain rfl : result = .ok () := hup
  have hiff := (hown Engine.embedded_speaks rfl hw ⟨.empty, 0⟩ rfl).1 after hrun
  exact ⟨_, h, hplan, by decide, ms, after, hselects, hlength.symm, rfl, mt hiff.1 htwice⟩

end TypedTables

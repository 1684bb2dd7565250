import TypedTables.Proofs.Schema.Migration
/-!
# TypedTables — migrations that are repeated

A migration that succeeded leaves every table and every index that it names in
place, also those that it found there: what a statement makes exist, or finds to
exist, no later statement takes away. Each statement carries the same guard, so
running it again does nothing, and so does asking for the status.
-/

namespace TypedTables

variable {δ : Type} {e : Engine δ} {w : Dialect} {list : δ → Inventory}

/-! ## What is in place -/

namespace Inventory

variable {v v' : Inventory} {name : String}

/-- Further tables do not take one away. -/
theorem HasTable.mono (h : v.HasTable name) (hv : v.tables <+: v'.tables) : v'.HasTable name := by
  obtain ⟨t, ht, hname⟩ := h
  exact ⟨t, hv.subset ht, hname⟩

end Inventory

namespace SchemaStatement

variable {t : WrittenTable} {i : WrittenIndex} {v v' : Inventory}

theorem isThere_index_mono (h : (index i).IsThere v) (htables : v'.tables = v.tables)
    (hindexes : v.indexes <+: v'.indexes) : (index i).IsThere v' := by
  obtain ⟨htable, hname, j, hj, hsame⟩ := h
  have hsame' : ∀ n, v'.HasTable n ↔ v.HasTable n := fun n => by
    rw [Inventory.HasTable, htables, Inventory.HasTable]
  exact ⟨(hsame' _).2 htable, mt (hsame' _).1 hname, j, hindexes.subset hj, hsame⟩

end SchemaStatement

namespace Engine.Speaks

variable {c c' : Connection δ} {t : WrittenTable} {i : WrittenIndex}

/-- **A table that was created is in place**, behind those that were there. -/
theorem isThere_table (he : e.Speaks w list) (ht : t.IsSpelled) (h : e.script t.sql c = (.ok (), c')) :
    (SchemaStatement.table t).IsThere (list c'.database) ∧ (list c.database).tables <+: (list c'.database).tables := by
  obtain ⟨-, ⟨-, hthere, rfl⟩ | ⟨-, columns, hadds⟩⟩ := he.effect (s := .table t) ht h
  · exact ⟨hthere, List.prefix_rfl⟩
  · rw [hadds]
    refine ⟨⟨_, List.mem_append_right _ (List.mem_singleton_self _), Keyword.same_refl t.name⟩, ?_⟩
    exact List.prefix_append _ _

/-- **An index that was created is in place**, next to those that were there. -/
theorem isThere_index (he : e.Speaks w list) (hi : i.IsSpelled) (h : e.script i.sql c = (.ok (), c')) :
    (SchemaStatement.index i).IsThere (list c'.database) ∧
      (list c'.database).tables = (list c.database).tables ∧
        (list c.database).indexes <+: (list c'.database).indexes := by
  obtain ⟨-, ⟨-, hthere, rfl⟩ | ⟨⟨htable, hname, -⟩, table, columns, hadds⟩⟩ := he.effect (s := .index i) hi h
  · exact ⟨hthere, rfl, List.prefix_rfl⟩
  · rw [hadds]
    refine ⟨⟨htable, hname, _, List.mem_append_right _ (List.mem_singleton_self _), Keyword.same_refl i.name⟩,
      rfl, ?_⟩
    exact List.prefix_append _ _

end Engine.Speaks

/-! ## Scripts that are run again -/

namespace Migration

variable {ι : Type} {ofFault : EngineFault → DatabaseError} {c c' : Connection δ}
  {f : ι → String} {items : List ι}

/-- **What each script leaves stays** if the others do not take it away. -/
theorem stays_of_runScripts {P : ι → δ → Prop} {R : δ → δ → Prop} (hrefl : ∀ d, R d d)
    (htrans : ∀ {a b c}, R a b → R b c → R a c) (hstays : ∀ {i d d'}, P i d → R d d' → P i d')
    (hrun : runScripts e ofFault (items.map f) c = (.ok (), c'))
    (h : ∀ i ∈ items, ∀ c c', e.script (f i) c = (.ok (), c') → P i c'.database ∧ R c.database c'.database) :
    (∀ i ∈ items, P i c'.database) ∧ R c.database c'.database := by
  refine of_runScripts (I := fun before d => (∀ i ∈ before, P i d) ∧ R c.database d) ⟨nofun, hrefl _⟩ hrun
    fun before i after heq c₁ c₂ ⟨hbefore, hkept⟩ hscript => ?_
  have hi : i ∈ items := heq ▸ List.mem_append_right before List.mem_cons_self
  obtain ⟨hown, hstep⟩ := h i hi c₁ c₂ hscript
  refine ⟨List.forall_mem_append.2 ⟨fun j hj => ?_, List.forall_mem_singleton.2 hown⟩, htrans hkept hstep⟩
  exact hstays (hbefore j hj) hstep

/-- Scripts that do nothing do nothing together. -/
theorem runScripts_of_forall {scripts : List String} (h : ∀ script ∈ scripts, e.script script c = (.ok (), c)) :
    runScripts e ofFault scripts c = (.ok (), c) := by
  induction scripts with
  | nil => rfl
  | cons script scripts ih =>
    rw [List.forall_mem_cons] at h
    exact runScripts_cons_eq_ok.2 ⟨c, h.1, ih h.2⟩

end Migration

namespace Model

variable {m : Model} {ms : List Model} {o : DdlOptions} {c c' : Connection δ} {ofFault : EngineFault → DatabaseError}

/-- **The scripts for the tables of some models**, once they succeeded: each has
succeeded somewhere, and the tables are in place as long as no table goes. -/
theorem tables_again (he : e.Speaks w list) (hs : ∀ m ∈ ms, m.IsSound)
    (h : Migration.runScripts e ofFault (ms.map fun m => (m.written o).sql) c = (.ok (), c')) :
    ∀ m ∈ ms, ((∃ b b', e.script (m.written o).sql b = (.ok (), b')) ∧ ¬w.refuses .created m.tableName) ∧
      (list c'.database).HasTable m.tableName := by
  refine (Migration.stays_of_runScripts
    (P := fun (m : Model) d => ((∃ b b', e.script (m.written o).sql b = (.ok (), b')) ∧
      ¬w.refuses .created m.tableName) ∧ (list d).HasTable m.tableName)
    (R := fun d d' => (list d).tables <+: (list d').tables) (fun _ => List.prefix_rfl) List.IsPrefix.trans ?_ h ?_).1
  · exact fun hm hd => ⟨hm.1, hm.2.mono hd⟩
  · intro m hm c c' hrun
    have hspelled : (m.written o).IsSpelled := isSpelled_written (hs m hm)
    obtain ⟨hthere, hkept⟩ := he.isThere_table hspelled hrun
    exact ⟨⟨⟨⟨c, c', hrun⟩, (he.effect (s := .table (m.written o)) hspelled hrun).1⟩, hthere⟩, hkept⟩

/-- **The scripts for some indexes**, once they succeeded: the same of them. They
leave the tables alone. -/
theorem indexes_again (he : e.Speaks w list) {ps : List (Model × Field)}
    (hps : ∀ p ∈ ps, p.1.IsSound ∧ p.2 ∈ p.1.indexedFields)
    (h : Migration.runScripts e ofFault (ps.map fun p => (p.1.writtenIndex o p.2).sql) c = (.ok (), c')) :
    (∀ p ∈ ps, (∃ b b', e.script (p.1.writtenIndex o p.2).sql b = (.ok (), b')) ∧
      (SchemaStatement.index (p.1.writtenIndex o p.2)).IsThere (list c'.database)) ∧
      (list c'.database).tables = (list c.database).tables := by
  have hstays := Migration.stays_of_runScripts
    (P := fun (p : Model × Field) d => (∃ b b', e.script (p.1.writtenIndex o p.2).sql b = (.ok (), b')) ∧
      (SchemaStatement.index (p.1.writtenIndex o p.2)).IsThere (list d))
    (R := fun d d' => (list d').tables = (list d).tables ∧ (list d).indexes <+: (list d').indexes)
    (fun _ => ⟨rfl, List.prefix_rfl⟩) (fun hab hbc => ⟨hbc.1.trans hab.1, hab.2.trans hbc.2⟩)
    (fun hp hd => ⟨hp.1, SchemaStatement.isThere_index_mono hp.2 hd.1 hd.2⟩) h
  obtain ⟨hplace, hsame, -⟩ := hstays fun p hp c c' hrun => by
    obtain ⟨hsound, hf⟩ := hps p hp
    obtain ⟨hthere, hkept⟩ := he.isThere_index (isSpelled_writtenIndex hsound (mem_fields_of_indexed hf)) hrun
    exact ⟨⟨⟨c, c', hrun⟩, hthere⟩, hkept⟩
  exact ⟨hplace, hsame⟩

/-- The scripts for indexes are made of some indexed columns: of all, or of none
where no indexes are wanted. -/
theorem exists_columns (ms : List Model) (o : DdlOptions) : ∃ ps : List (Model × Field),
    (∀ p ∈ ps, p.1 ∈ ms ∧ p.2 ∈ p.1.indexedFields) ∧ (SchemaPlan.ofModels ms o).statements =
      ((creationOrder ms).map fun m => (m.written o).sql) ++ ps.map fun p => (p.1.writtenIndex o p.2).sql := by
  have hmem : ∀ {m}, m ∈ creationOrder ms ↔ m ∈ ms := (creationOrder_perm ms).mem_iff
  rw [statements_ofModels, statements, List.map_append, List.map_map]
  cases o.emitIndexes with
  | true =>
    refine ⟨indexed (creationOrder ms), fun p hp => ?_, ?_⟩
    · exact ⟨hmem.1 (mem_indexed.1 hp).1, (mem_indexed.1 hp).2⟩
    · rw [if_pos rfl, List.map_map]
      rfl
  | false => exact ⟨[], List.forall_mem_nil _, rfl⟩

/-- **The statements of a plan**, once they succeeded: its tables have names that
an engine takes, and none of the statements does anything. -/
theorem statements_again (he : e.Speaks w list) (hs : ∀ m ∈ ms, m.IsSound) (ho : o.ifNotExists = true)
    (h : Migration.runScripts e ofFault (SchemaPlan.ofModels ms o).statements c = (.ok (), c')) :
    (∀ m ∈ ms, ¬w.refuses .created m.tableName) ∧
      ∀ script ∈ (SchemaPlan.ofModels ms o).statements, e.script script c' = (.ok (), c') := by
  have hmem : ∀ {m}, m ∈ creationOrder ms ↔ m ∈ ms := (creationOrder_perm ms).mem_iff
  obtain ⟨ps, hps, hstatements⟩ := exists_columns ms o
  rw [hstatements] at h ⊢
  obtain ⟨c₁, htables, hrest⟩ := Migration.runScripts_append_eq_ok.1 h
  have hplace := tables_again he (fun m hm => hs m (hmem.1 hm)) htables
  obtain ⟨hindexed, hsame⟩ := indexes_again he (fun p hp => ⟨hs p.1 (hps p hp).1, (hps p hp).2⟩) hrest
  refine ⟨fun m hm => (hplace m (hmem.2 hm)).1.2, fun script hscript => ?_⟩
  rcases List.mem_append.1 hscript with htable | hindex
  · obtain ⟨m, hm, rfl⟩ := List.mem_map.1 htable
    obtain ⟨⟨⟨b, b', hrun⟩, -⟩, hthere⟩ := hplace m hm
    -- the indexes came last, and no table has changed since
    exact he.skipped (s := .table (m.written o)) (isSpelled_written (hs m (hmem.1 hm))) hrun ho
      (hthere.mono (hsame ▸ List.prefix_rfl))
  · obtain ⟨p, hp, rfl⟩ := List.mem_map.1 hindex
    obtain ⟨⟨b, b', hrun⟩, hthere⟩ := hindexed p hp
    obtain ⟨hm, hf⟩ := hps p hp
    exact he.skipped (s := .index (p.1.writtenIndex o p.2))
      (isSpelled_writtenIndex (hs p.1 hm) (mem_fields_of_indexed hf)) hrun ho hthere

end Model

/-! ## Calls in any order -/

namespace Migration

variable {p : SchemaPlan} {c : Connection δ}

/-- What can be asked of a plan again and again. -/
inductive Call where
  | up
  | status
deriving Repr, DecidableEq

/-- What a call does. Only the status has something to say. -/
def Call.run (e : Engine δ) (p : SchemaPlan) : Call → ConnectionM δ DatabaseError (Option MigrationStatus)
  | .up => do
    Migration.up e p
    return none
  | .status => return some (← Migration.status e p)

/-- The answers to calls one after the other, also where some fail, and the
connection after them. -/
def runCalls (e : Engine δ) (p : SchemaPlan) :
    List Call → Connection δ → List (Except DatabaseError (Option MigrationStatus)) × Connection δ
  | [], c => ([], c)
  | call :: calls, c =>
    let called := call.run e p c
    let rest := runCalls e p calls called.2
    (called.1 :: rest.1, rest.2)

/-- Calls of which each changes nothing are answered as if each were the only
one, by induction on them. -/
theorem runCalls_eq (h : ∀ call : Call, (call.run e p c).2 = c)
    (calls : List Call) : runCalls e p calls c = (calls.map fun call => (call.run e p c).1, c) := by
  induction calls with
  | nil => rfl
  | cons call calls ih => rw [runCalls, h call, ih, List.map_cons]

/-- **A plan that is settled** on a connection: creating it again succeeds and
changes nothing, nor do any calls in any order, and the status of a database
whose rows can be counted is answered from what is there. -/
structure IsSettled (p : SchemaPlan) (e : Engine δ) (list : δ → Inventory) (c : Connection δ) : Prop where
  up_eq : up e p c = (.ok (), c)
  runCalls_eq : ∀ calls, runCalls e p calls c = (calls.map fun call => (call.run e p c).1, c)
  status_eq : (∀ name ∈ p.tables, (list c.database).IsCountable name) →
    status e p c = (.ok ⟨p.tables.map (list c.database).tableStatus⟩, c)

/-- It is settled as soon as its statements do nothing. -/
theorem isSettled_of_statements (he : e.Speaks w list) (hnames : ∀ name ∈ p.tables, IsAskable w name)
    (h : ∀ script ∈ p.statements, e.script script c = (.ok (), c)) : IsSettled p e list c := by
  have hup : up e p c = (.ok (), c) :=
    (up_eq_ok he fun name hname => (hnames name hname).isValid).2 (runScripts_of_forall h)
  -- a call keeps the connection, whether it is answered or not
  have hstep : ∀ call : Call, (call.run e p c).2 = c := by
    intro call
    cases call with
    | up => exact Connection.snd_bind (congrArg Prod.snd hup) fun _ _ => rfl
    | status => exact Connection.snd_bind (snd_status he hnames c) fun _ _ => rfl
  exact ⟨hup, runCalls_eq hstep, status_eq he hnames⟩

end Migration

/-- **Repeating a migration changes nothing.** After a plan for any extracted
models was created with the guard, on whatever was there before, it is settled,
also where models share names and where no indexes are wanted. This holds of any
engine that does what is expected of one. -/
theorem migrations_are_repeatable (he : e.Speaks w list) {d : Declarations} {r : Registry} (h : extract d = .ok r)
    {ms : List Model} (hms : ∀ m ∈ ms, m ∈ r.models.values) {o : DdlOptions} (ho : o.ifNotExists = true)
    {before after : Connection δ} (hup : Migration.up e (SchemaPlan.ofModels ms o) before = (.ok (), after)) :
    Migration.IsSettled (SchemaPlan.ofModels ms o) e list after := by
  obtain ⟨hnone, rfl⟩ := Extraction.errors_of_extract h
  have hsound := (Extraction.isSound_of_errors_eq_nil hnone).models_areSound
  have hs : ∀ m ∈ ms, m.IsSound := fun m hm => hsound m (hms m hm)
  have hvalid := Model.tables_areValid (o := o) hs
  obtain ⟨hfree, hagain⟩ := Model.statements_again he hs ho ((Migration.up_eq_ok he hvalid).1 hup)
  refine Migration.isSettled_of_statements he (fun name hname => ⟨hvalid name hname, ?_⟩) hagain
  obtain ⟨m, hm, rfl⟩ := List.mem_map.1 hname
  exact hfree m ((Model.creationOrder_perm ms).mem_iff.1 hm)

theorem migrations_are_repeatable_library : ∃ r, extract libraryDeclarations = .ok r ∧ ∃ after,
    Migration.up Engine.embedded
      (SchemaPlan.ofModels (r.modelsOf "library") { ifNotExists := true, emitIndexes := true }) ⟨.empty, 0⟩ =
        (.ok (), after) ∧
      Migration.IsSettled
        (SchemaPlan.ofModels (r.modelsOf "library") { ifNotExists := true, emitIndexes := true })
        Engine.embedded Database.inventory after := by
  have hnone : (Extraction.findings libraryDeclarations).errors = [] := by decide +kernel
  have hr := extract_of_errors_eq_nil hnone
  have hsound := (Extraction.isSound_of_errors_eq_nil hnone).areSound "library"
  obtain ⟨after, hup, -⟩ := Model.exists_up
    (o := { ifNotExists := true, emitIndexes := true }) (c := ⟨.empty, 0⟩) Engine.embedded_speaks
    hsound.each_isSound (by decide +kernel) (by decide +kernel) rfl rfl rfl
  exact ⟨_, hr, after, hup,
    migrations_are_repeatable Engine.embedded_speaks hr (fun m hm => (List.mem_filter.1 hm).1) rfl hup⟩

end TypedTables

import TypedTables.Proofs.Except
import TypedTables.Proofs.Clause.Compile
import TypedTables.Proofs.Storage.Logged
/-!
# TypedTables — one question for both kinds of store

A resolver gets the parts of a question one by one, each of them only where it
is there; a local database gets all of them in one statement. `ResolverCall.sql?`
puts the parts together again. What a content store asks its resolver makes the
statement that a local database runs for the same request, with the same
arguments.
-/

namespace TypedTables

/-! ## The parts put together -/

/-- The condition of a question, with its arguments. -/
def conditionSql (selection : Option String) (args : List Value) : Sql :=
  match selection with
  | some condition => ⟨" WHERE " ++ condition, args⟩
  | none => ⟨"", args⟩

/-- The order of the rows. -/
def sortSql (sortOrder : Option String) : Sql :=
  match sortOrder with
  | some order => .lit (" ORDER BY " ++ order)
  | none => .empty

/-- A query of a resolver as a statement about a table. No projection means all
columns. -/
def ContentQuery.sql (table : String) (q : ContentQuery) : Sql :=
  let projection := if q.projection.isEmpty then "*" else String.intercalate ", " q.projection
  .lit ("SELECT " ++ projection ++ " FROM " ++ table) ++ conditionSql q.selection q.args ++ sortSql q.sortOrder

/-- Columns that get new values, each with its placeholder. -/
def assignedSql (values : Values) : Sql :=
  ⟨String.intercalate ", " (values.columns.map (· ++ " = ?")), values.values⟩

/-- A call of a resolver as a statement about a table. Rows that are inserted
together make no single one. -/
def ResolverCall.sql? (table : String) : ResolverCall → Option Sql
  | .query q => some (q.sql table)
  | .update _ values selection args =>
    some (.lit ("UPDATE " ++ table ++ " SET ") ++ assignedSql values ++ conditionSql selection args)
  | .delete _ selection args => some (.lit ("DELETE FROM " ++ table) ++ conditionSql selection args)
  | .bulkInsert .. => none

@[simp] theorem args_conditionSql (selection : Option String) (args : List Value) :
    (conditionSql selection args).args = args := by
  cases selection <;> rfl

@[simp] theorem args_sortSql (sortOrder : Option String) : (sortSql sortOrder).args = [] := by
  cases sortOrder <;> rfl

/-- A query has no arguments but those of its condition. -/
@[simp] theorem ContentQuery.args_sql (table : String) (q : ContentQuery) : (q.sql table).args = q.args := by
  simp [ContentQuery.sql]

namespace ContentStore

variable {σ : Type} (store : ContentStore) {r : SelectRequest} {table : String} {values : Values}
  {selection : Sql}

/-! ## The parts of a question -/

/-- **A condition is there for both or for neither.** One without text is left
out by both, and its arguments with it. -/
theorem conditionSql_selectionText (selection : Sql) :
    conditionSql (selectionText selection) (selectionArgs selection) = Statement.whereClause selection := by
  unfold selectionText selectionArgs Statement.whereClause
  by_cases hempty : selection.isEmpty = true
  · rw [if_pos hempty, if_pos hempty, if_pos hempty]
    rfl
  · rw [if_neg hempty, if_neg hempty, if_neg hempty]
    ext1 <;> simp [conditionSql]

theorem sortSql_listSql? (terms : List OrderTerm) :
    sortSql (OrderTerm.listSql? terms) = Statement.orderByClause terms := by
  unfold sortSql Statement.orderByClause
  cases OrderTerm.listSql? terms <;> rfl

/-- The assignments of a statement name the columns that are handed over. -/
theorem assignedSql_eq (values : Values) :
    assignedSql values = Sql.join ", " (values.entries.map Statement.assignment) := by
  have htext (entry : String × Value) : (Statement.assignment entry).text = entry.1 ++ " = ?" := by
    simp only [Statement.assignment, Sql.text_append, Sql.text_lit, Sql.text_bind, String.append_assoc]
    rfl
  have hargs (entry : String × Value) : (Statement.assignment entry).args = [entry.2] := rfl
  ext1
  · simp only [assignedSql, Sql.join, Values.columns, List.map_map, Function.comp_def, htext]
  · simp only [assignedSql, Sql.join, Values.values, List.flatMap_map, hargs]
    exact List.map_eq_flatMap

/-! ## The questions -/

/-- A query that a resolver can be asked is the statement of its request. -/
theorem sql_queryOf (hjoins : r.joins = []) (hgroups : r.groupBy = []) (hhaving : r.having.isEmpty = true)
    (hlimit : r.limit = none) : (store.queryOf r).sql r.table = Statement.select r := by
  have hcolumns : r.projection = if r.columns.isEmpty then "*" else String.intercalate ", " r.columns := by
    rw [SelectRequest.projection, hjoins]
    rfl
  have hgroup : Statement.groupByClause r.groupBy = .empty := by simp [Statement.groupByClause, hgroups]
  have hhave : Statement.havingClause r.having = .empty := if_pos hhaving
  have hlim : Statement.limitClause r.limit = .empty := by simp [Statement.limitClause, hlimit]
  have hjoin : Sql.concat (r.joins.map CompiledJoin.sql) = .empty := by rw [hjoins]; rfl
  rw [Statement.select, hgroup, hhave, hlim, hjoin]
  simp only [Sql.append_empty, ContentQuery.sql, queryOf, conditionSql_selectionText, sortSql_listSql?, hcolumns]
  rfl

/-- What is asked for a number of rows is the statement that counts them, once
its projection is the number. -/
theorem sql_countQuery : ({ store.countQuery table selection with projection := ["COUNT(*)"] } : ContentQuery).sql
    table = Statement.count table selection := by
  simp only [ContentQuery.sql, countQuery, conditionSql_selectionText, sortSql, Sql.append_empty, Statement.count]
  rfl

/-- The assigned values come before the arguments of the condition. -/
theorem sql_update {uri : String} :
    (ResolverCall.update uri values (selectionText selection) (selectionArgs selection)).sql? table =
      some (Statement.update table values selection) := by
  rw [ResolverCall.sql?, conditionSql_selectionText, assignedSql_eq]
  rfl

theorem sql_delete {uri : String} :
    (ResolverCall.delete uri (selectionText selection) (selectionArgs selection)).sql? table =
      some (Statement.delete table selection) := by
  rw [ResolverCall.sql?, conditionSql_selectionText]
  rfl

/-- What is made of an answer does not concern the log, nor the resolver. -/
theorem run_logged_bind {κ α β : Type} (call : κ) (op : StoreM σ α) (read : α → Except StorageError β)
    (log : List κ) (state : σ) :
    ((StoreM.logged call op >>= fun a => ExceptT.mk (pure (read a))).run (log, state)).2 =
      (log ++ [call], (op.run state).2) := by
  have hlogged : (StoreM.logged call op).run (log, state) =
      ((op.run state).1, log ++ [call], (op.run state).2) := rfl
  rw [run_bind_state, hlogged]
  rcases (op.run state).1 with e | answer <;> rfl

/-- What a resolver has been asked once a call is carried out. -/
def askedAfter (resolver : Resolver σ) (call : StoreCall) (log : List ResolverCall) (state : σ) :
    List ResolverCall :=
  (((store.storage resolver.logged).perform call).run (log, state)).2.1

theorem askedAfter_select (resolver : Resolver σ) (h : r.localFeature? = none) (log : List ResolverCall)
    (state : σ) : store.askedAfter resolver (.select r) log state = log ++ [.query (store.queryOf r)] := by
  have hselect : (store.storage resolver.logged).perform (.select r) =
      resolver.logged.query (store.queryOf r) := by
    simp only [Storage.perform, storage, select, h]
    rfl
  rw [askedAfter, hselect]
  rfl

theorem askedAfter_count (resolver : Resolver σ) (log : List ResolverCall) (state : σ) :
    store.askedAfter resolver (.count table selection) log state =
      log ++ [.query (store.countQuery table selection)] := by
  exact congrArg Prod.fst (run_logged_bind (.query (store.countQuery table selection))
    (resolver.query (store.countQuery table selection)) (readCount (store.uri table)) log state)

/-- **Both kinds of store ask the same question.** Whatever the resolver answers
it is asked once; the condition that it gets is the one of the statement or is
left out like it, with its arguments, and so is the order of the rows; and the
parts put together make the statement. -/
theorem same_question (store : ContentStore) (resolver : Resolver σ) (log : List ResolverCall) (state : σ) :
    (∀ r : SelectRequest, r.joins = [] → r.groupBy = [] → r.having.isEmpty = true → r.limit = none →
      ∃ q : ContentQuery, store.askedAfter resolver (.select r) log state = log ++ [.query q] ∧
        q.uri = store.uri r.table ∧ q.projection = r.columns ∧
        conditionSql q.selection q.args = Statement.whereClause r.selection ∧
        sortSql q.sortOrder = Statement.orderByClause r.orderBy ∧ q.sql r.table = Statement.select r ∧
        (Statement.select r).args = q.args) ∧
    ∀ (table : String) (selection : Sql),
      (∀ values, ∃ condition args,
        store.askedAfter resolver (.update table values selection) log state =
          log ++ [.update (store.uri table) values condition args] ∧
        conditionSql condition args = Statement.whereClause selection ∧
        (ResolverCall.update (store.uri table) values condition args).sql? table =
          some (Statement.update table values selection) ∧
        (Statement.update table values selection).args = values.values ++ args) ∧
      (∃ condition args,
        store.askedAfter resolver (.delete table selection) log state =
          log ++ [.delete (store.uri table) condition args] ∧
        conditionSql condition args = Statement.whereClause selection ∧
        (ResolverCall.delete (store.uri table) condition args).sql? table =
          some (Statement.delete table selection) ∧
        (Statement.delete table selection).args = args) ∧
      ∃ q : ContentQuery, store.askedAfter resolver (.count table selection) log state = log ++ [.query q] ∧
        q.uri = store.uri table ∧ q.sortOrder = none ∧
        conditionSql q.selection q.args = Statement.whereClause selection ∧
        ({ q with projection := ["COUNT(*)"] } : ContentQuery).sql table = Statement.count table selection ∧
        (Statement.count table selection).args = q.args := by
  constructor
  · intro r hjoins hgroups hhaving hlimit
    have hfeature : r.localFeature? = none := by
      simp [SelectRequest.localFeature?, hjoins, hgroups, hhaving, hlimit]
    have hsql := store.sql_queryOf hjoins hgroups hhaving hlimit
    refine ⟨store.queryOf r, store.askedAfter_select resolver hfeature log state, rfl, rfl,
      conditionSql_selectionText r.selection, sortSql_listSql? r.orderBy, hsql, ?_⟩
    rw [← hsql, ContentQuery.args_sql]
  · intro table selection
    have hcondition := conditionSql_selectionText selection
    have hargs : (Statement.whereClause selection).args = selectionArgs selection := by
      rw [← hcondition, args_conditionSql]
    refine ⟨fun values => ⟨_, _, rfl, hcondition, sql_update, ?_⟩, ⟨_, _, rfl, hcondition, sql_delete, ?_⟩,
      store.countQuery table selection, store.askedAfter_count resolver log state, rfl, rfl, hcondition,
      store.sql_countQuery, ?_⟩
    · rw [Statement.update, ← assignedSql_eq, Sql.args_append, hargs]
      rfl
    · rw [Statement.delete, Sql.args_append, hargs]
      rfl
    · rw [Statement.count, Sql.args_append, hargs]
      rfl

/-- Authors of a letter, sorted by name and by number. -/
def authorsRequest : SelectRequest where
  table := "Authors"
  columns := ["name"]
  selection := ⟨"name LIKE ? AND rating > ?", [.text "A%", .integer 3]⟩
  orderBy := [⟨"name", .ascending, .noCase⟩, ⟨"id", .descending, .none⟩]

/-- A resolver that fails is asked the question as well. -/
theorem same_question_authors :
    ∃ q : ContentQuery,
      (⟨"com.example.library", .countColumn⟩ : ContentStore).askedAfter
          (Resolver.scripted { failure := some "no connection" }) (.select authorsRequest) [] [] = [.query q] ∧
        q.uri = "content://com.example.library/authors" ∧
        q.selection = some "name LIKE ? AND rating > ?" ∧ q.args = [.text "A%", .integer 3] ∧
        q.sortOrder = some "name COLLATE NOCASE ASC, id DESC" ∧
        Statement.select authorsRequest = q.sql "Authors" := by
  obtain ⟨hselect, -⟩ := same_question ⟨"com.example.library", .countColumn⟩
    (Resolver.scripted { failure := some "no connection" }) [] []
  obtain ⟨q, hasked, huri, -, -, -, hsql, -⟩ := hselect authorsRequest rfl rfl rfl rfl
  obtain rfl : q = (⟨"com.example.library", .countColumn⟩ : ContentStore).queryOf authorsRequest := by
    rw [askedAfter_select _ _ rfl] at hasked
    cases hasked
    rfl
  exact ⟨_, hasked, huri.trans (by decide +kernel), by decide +kernel, by decide +kernel, by decide +kernel,
    hsql.symm⟩

end ContentStore

end TypedTables

import Mathlib.Data.List.Induction
import TypedTables.Proofs.Query.Preparation
import TypedTables.Sample
/-!
# TypedTables — the life of a builder

A builder is set and executed in any order, any number of times. Whatever is
done with it, its state says what was done: nothing yet, settings alone, or an
execution. The store is called at most once, in the first execution; every later
one is refused, and settings that come after it do not revive the builder.
-/

namespace TypedTables

universe u

variable {σ α : Type}

/-- A kind of builder: how it starts, what can be set, and the ways in which it
is executed, each with its own answer. -/
structure BuilderKind (σ : Type) where
  Settings : Type
  Setting : Type
  Execution : Type u
  Answer : Execution → Type
  name : String
  start : Builder Settings
  set : Setting → Builder Settings → Builder Settings
  run : (e : Execution) → Settings → QueryM σ (Answer e)

/-- What is done with a builder of a kind. -/
inductive BuilderKind.Step (k : BuilderKind.{u} σ) : Type u
  | set (x : k.Setting)
  | execute (e : k.Execution)

/-- A setting does not revive a builder, nor does it end one. -/
theorem BuilderState.configure_ne_executed {state : BuilderState} (h : state ≠ .executed) :
    state.configure ≠ .executed := by
  cases state with
  | executed => exact absurd rfl h
  | _ => exact BuilderState.noConfusion

namespace BuilderKind

/-- Whether a step is an execution. -/
def Step.isExecution {k : BuilderKind.{u} σ} : k.Step → Bool
  | .set _ => false
  | .execute _ => true

@[simp] theorem Step.isExecution_set {k : BuilderKind.{u} σ} (x : k.Setting) :
    (Step.set x : k.Step).isExecution = false := rfl

@[simp] theorem Step.isExecution_execute {k : BuilderKind.{u} σ} (e : k.Execution) :
    (Step.execute e : k.Step).isExecution = true := rfl

/-- Executes a builder on a store, with the answer first. -/
def execute (k : BuilderKind.{u} σ) (e : k.Execution) (x : Builder k.Settings × σ) :
    Except QueryError (k.Answer e) × (Builder k.Settings × σ) :=
  let ((answer, b), s) := Builder.execute k.name (k.run e) x.1 x.2
  (answer, b, s)

/-- The builder and the store after one step more. -/
def step (k : BuilderKind.{u} σ) (x : Builder k.Settings × σ) : k.Step → Builder k.Settings × σ
  | .set setting => (k.set setting x.1, x.2)
  | .execute e => (k.execute e x).2

/-- The builder and the store after some steps. -/
def after (k : BuilderKind.{u} σ) (steps : List k.Step) (s : σ) : Builder k.Settings × σ :=
  steps.foldl k.step (k.start, s)

/-- **A builder runs once**, on a store that logs its calls: what its state, its
answers and the log are after any steps. -/
structure RunsOnce (k : BuilderKind.{u} (List StoreCall × σ)) (first : BuilderState) : Prop where
  state_after : ∀ steps w, (k.after steps w).1.state =
    if steps.any (·.isExecution) then .executed else if steps.isEmpty then first else .configured
  /-- There is one call at most, whatever was logged before. -/
  calls_le : ∀ steps log s, ∃ calls : List StoreCall, calls.length ≤ 1 ∧
    (k.after steps (log, s)).2.1 = log ++ calls
  /-- There is none before the first execution. -/
  quiet_before : ∀ steps w, steps.any (·.isExecution) = false → (k.after steps w).2 = w
  /-- There is none after it, and the store stays what it is. -/
  quiet_after : ∀ steps more w, steps.any (·.isExecution) = true →
    (k.after (steps ++ more) w).2 = (k.after steps w).2
  /-- Every other execution is refused. -/
  refused_after : ∀ steps w e, steps.any (·.isExecution) = true →
    (k.execute e (k.after steps w)).1 = .error (.alreadyExecuted k.name)

/-! ## One step -/

variable {k : BuilderKind.{u} σ} {x : Builder k.Settings × σ} {s : σ}

/-- An executed builder is not executed again. -/
theorem execute_of_executed (e : k.Execution) (h : x.1.state = .executed) :
    k.execute e x = (.error (.alreadyExecuted k.name), x) := by
  unfold execute Builder.execute
  rw [h]

/-- **The first execution** runs with the settings of the moment, and the
builder is executed then, whatever the answer. -/
theorem execute_of_not_executed (e : k.Execution) (h : x.1.state ≠ .executed) :
    k.execute e x = (((k.run e x.1.settings).run x.2).1, ⟨x.1.settings, .executed⟩,
      ((k.run e x.1.settings).run x.2).2) := by
  unfold execute Builder.execute
  rcases hstate : x.1.state with _ | _ | _
  · rfl
  · rfl
  · exact absurd hstate h

/-- After an execution a builder is executed. -/
theorem state_execute (e : k.Execution) : (k.execute e x).2.1.state = .executed := by
  by_cases h : x.1.state = .executed
  · rw [execute_of_executed e h]
    exact h
  · rw [execute_of_not_executed e h]

/-- **What a kind of builder has to keep to**: a setting changes the state as
settings do, and an execution does as was prepared. A builder that is configured
from the start is never met before it is. -/
structure IsLawful (k : BuilderKind.{u} (List StoreCall × σ)) (store : Storage σ)
    (preparation : k.Execution → k.Settings → Preparation) : Prop where
  state_start : k.start.state ≠ .executed
  state_set : ∀ setting b, (b.state = .unconfigured → k.start.state = .unconfigured) →
    (k.set setting b).state = b.state.configure
  does : ∀ e settings, QueryM.Does store (k.run e settings) (preparation e settings)

/-! ## Any steps -/

theorem after_concat (steps : List k.Step) (step : k.Step) :
    k.after (steps ++ [step]) s = k.step (k.after steps s) step := by
  rw [after, List.foldl_append]
  rfl

theorem any_concat (steps : List k.Step) (step : k.Step) :
    (steps ++ [step]).any (·.isExecution) = (steps.any (·.isExecution) || step.isExecution) := by
  rw [List.any_append, List.any_cons, List.any_nil, Bool.or_false]

/-- Settings do not concern the store. -/
theorem quiet_before {steps : List k.Step} (hnone : steps.any (·.isExecution) = false) :
    (k.after steps s).2 = s := by
  induction steps using List.reverseRecOn with
  | nil => rfl
  | append_singleton steps step ih =>
    rw [any_concat, Bool.or_eq_false_iff] at hnone
    rw [after_concat]
    cases step with
    | set setting => exact ih hnone.1
    | execute e => cases hnone.2

/-! ## Settings, and then an execution -/

/-- What comes of an execution that follows some settings: the answer, the
builder and the store. -/
def executed (k : BuilderKind.{u} σ) (settings : List k.Setting) (e : k.Execution) (s : σ) :
    Except QueryError (k.Answer e) × (Builder k.Settings × σ) :=
  k.execute e (k.after (settings.map .set) s)

/-- The execution is refused, and the store is not asked. -/
def IsRefused (k : BuilderKind.{u} σ) (settings : List k.Setting) (e : k.Execution) (s : σ) : Prop :=
  ∃ error, (k.executed settings e s).1 = .error error ∧ (k.executed settings e s).2.2 = s

/-- No setting is an execution. -/
theorem any_map_set (settings : List k.Setting) :
    (settings.map (Step.set (k := k))).any (·.isExecution) = false := by
  simp

/-- A builder that settings do not end is ready to be executed. -/
theorem not_executed_after_settings (hstart : k.start.state ≠ .executed)
    (hset : ∀ x b, b.state ≠ .executed → (k.set x b).state ≠ .executed) (settings : List k.Setting) (s : σ) :
    (k.after (settings.map .set) s).1.state ≠ .executed := by
  induction settings using List.reverseRecOn with
  | nil => exact hstart
  | append_singleton settings x ih =>
    rw [List.map_append, List.map_singleton, after_concat]
    exact hset x _ ih

/-- **The execution runs with what was set**, on the store as it was. -/
theorem executed_eq {settings : List k.Setting} (hready : (k.after (settings.map .set) s).1.state ≠ .executed)
    (e : k.Execution) :
    let made := (k.after (settings.map .set) s).1.settings
    k.executed settings e s = (((k.run e made).run s).1, ⟨made, .executed⟩, ((k.run e made).run s).2) := by
  intro made
  rw [executed, execute_of_not_executed e hready, quiet_before (any_map_set settings)]

namespace IsLawful

variable {k : BuilderKind.{u} (List StoreCall × σ)} {store : Storage σ}
  {preparation : k.Execution → k.Settings → Preparation} (h : IsLawful k store preparation)
  {w : List StoreCall × σ}
include h

/-- **The state tells what was done**, by induction on the steps from the last
one: a setting never takes an execution back. -/
theorem state_after (steps : List k.Step) : (k.after steps w).1.state =
    if steps.any (·.isExecution) then .executed
    else if steps.isEmpty then k.start.state else .configured := by
  induction steps using List.reverseRecOn with
  | nil => rfl
  | append_singleton steps step ih =>
    rw [after_concat, any_concat]
    have hsome : (steps ++ [step]).isEmpty = false := by simp
    rw [hsome]
    cases step with
    | execute e =>
      rw [Step.isExecution_execute, Bool.or_true, if_pos rfl]
      exact state_execute e
    | set setting =>
      -- a builder that has settings from the start is never without them
      have hset : (k.set setting (k.after steps w).1).state = (k.after steps w).1.state.configure := by
        refine h.state_set setting _ fun hstate => ?_
        rw [ih] at hstate
        split at hstate
        · cases hstate
        split at hstate
        · exact hstate
        · cases hstate
      have hstart : k.start.state.configure = .configured := by
        rcases hstate : k.start.state with _ | _ | _
        · rfl
        · rfl
        · exact absurd hstate h.state_start
      rw [step, hset, ih, Step.isExecution_set, Bool.or_false]
      split
      · rfl
      split
      · exact hstart
      · rfl

/-- Once it was executed, the builder stays so. -/
theorem executed_after {steps : List k.Step} (hany : steps.any (·.isExecution) = true) :
    (k.after steps w).1.state = .executed := by
  rw [h.state_after steps, if_pos hany]

theorem not_executed_after {steps : List k.Step} (hany : steps.any (·.isExecution) = false) :
    (k.after steps w).1.state ≠ .executed := by
  rw [h.state_after steps, hany]
  have hstart := h.state_start
  split
  · next hfalse => cases hfalse
  split
  · exact hstart
  · nofun

theorem quiet_after {steps : List k.Step} (more : List k.Step)
    (hany : steps.any (·.isExecution) = true) :
    (k.after (steps ++ more) w).2 = (k.after steps w).2 := by
  induction more using List.reverseRecOn with
  | nil => rw [List.append_nil]
  | append_singleton more step ih =>
    rw [← List.append_assoc, after_concat, ← ih]
    cases step with
    | set setting => rfl
    | execute e =>
      have hexecuted : (k.after (steps ++ more) w).1.state = .executed := by
        refine h.executed_after ?_
        rw [List.any_append, hany, Bool.true_or]
      rw [step, execute_of_executed e hexecuted]

/-- **There is one call at most.** Before the last step the log has at most one
more; that step adds to it only if it is the first execution, and then there
was none. -/
theorem calls_le (steps : List k.Step) (log : List StoreCall) (s : σ) :
    ∃ calls : List StoreCall, calls.length ≤ 1 ∧ (k.after steps (log, s)).2.1 = log ++ calls := by
  induction steps using List.reverseRecOn with
  | nil => exact ⟨[], Nat.zero_le 1, (List.append_nil log).symm⟩
  | append_singleton steps step ih =>
    rcases hany : steps.any (·.isExecution) with _ | _
    -- nothing was logged yet, so the last step may log its one call
    · rw [after_concat]
      cases step with
      | set setting => exact ih
      | execute e =>
        have hquiet : (k.after steps (log, s)).2 = (log, s) := BuilderKind.quiet_before hany
        rw [step, execute_of_not_executed e (h.not_executed_after hany), hquiet]
        exact (h.does e _).calls_le log s
    · rw [h.quiet_after [step] hany]
      exact ih

/-- **A lawful builder runs once.** -/
theorem runsOnce : k.RunsOnce k.start.state where
  state_after steps _ := h.state_after steps
  calls_le := h.calls_le
  quiet_before _ _ hnone := BuilderKind.quiet_before hnone
  quiet_after _ more _ hany := h.quiet_after more hany
  refused_after steps w e hany := by
    rw [execute_of_executed e (h.executed_after hany)]

end IsLawful

end BuilderKind

/-! ## The six builders -/

/-- The ways to execute a select. -/
inductive Select.Execution
  | query
  | all
  | single

/-- The settings that a select is executed with. -/
def Select.Execution.settings (kind : ProviderKind) (s : Select) : Select.Execution → Select
  | .single => s.single kind
  | _ => s

theorem Select.single_eq {kind : ProviderKind} {s : Select} : s.single kind =
    if kind = .local ∧ s.limit = none then { s with limit := some { count := 1 } } else s := by
  unfold single
  rcases hlimit : s.limit with _ | l <;> cases kind <;> simp

/-- An execution sets a limit at most. -/
theorem Select.Execution.exists_settings_eq (e : Select.Execution) (kind : ProviderKind) (s : Select) :
    ∃ limit, e.settings kind s = { s with limit } := by
  cases e with
  | query | all => exact ⟨s.limit, rfl⟩
  | single =>
    change ∃ limit, s.single kind = _
    rw [single_eq]
    split
    · exact ⟨_, rfl⟩
    · exact ⟨s.limit, rfl⟩

/-- The ways to execute a query in SQL: its rows are taken as they are, or
mapped to some model. -/
inductive Raw.Execution : Type 1
  | rows
  | query {β : Type} (m : Mapping β)

namespace BuilderKind

/-- Select builders for a model on a store. -/
def select (m : Mapping α) (store : Storage σ) : BuilderKind σ where
  Settings := Select
  Setting := SelectSetting
  Execution := Select.Execution
  Answer
    | .query => Results α
    | .all => List α
    | .single => Option α
  name := Select.builderName
  start := ⟨{}, .unconfigured⟩
  set setting b := b.configure (Select.set setting)
  run
    | .query => Select.query m store
    | .all => Select.queryAll m store
    | .single => Select.querySingle m store

def insert (m : Mapping α) (store : Storage σ) : BuilderKind σ where
  Settings := Insert
  Setting := InsertSetting α
  Execution := Unit
  Answer _ := Nat
  name := Insert.builderName
  start := ⟨{}, .unconfigured⟩
  set setting b := b.configure (Insert.set m setting)
  run _ := Insert.run m store

def update (m : Mapping α) (store : Storage σ) : BuilderKind σ where
  Settings := Update
  Setting := UpdateSetting α
  Execution := Unit
  Answer _ := Nat
  name := Update.builderName
  start := ⟨{}, .unconfigured⟩
  set setting b := b.configure (Update.set m setting)
  run _ := Update.run m store

def delete (m : Mapping α) (store : Storage σ) : BuilderKind σ where
  Settings := Delete
  Setting := DeleteSetting α
  Execution := Unit
  Answer _ := Nat
  name := Delete.builderName
  start := ⟨{}, .unconfigured⟩
  set setting b := b.configure (Delete.set m setting)
  run _ := Delete.run m store

def count (m : Mapping α) (store : Storage σ) : BuilderKind σ where
  Settings := Count
  Setting := Clause
  Execution := Unit
  Answer _ := Nat
  name := Count.builderName
  start := ⟨{}, .unconfigured⟩
  set clause b := b.configure (Count.set clause)
  run _ := Count.run m store

/-- Builders for a query in SQL. They are configured from the start. -/
def raw (sql : String) (store : Storage σ) : BuilderKind σ where
  Settings := Raw
  Setting := List Value
  Execution := Raw.Execution
  Answer
    | .rows => Cursor
    | @Raw.Execution.query β _ => Results β
  name := Raw.builderName
  start := Raw.builder sql
  set args b := Raw.setArgs args b
  run
    | .rows => Raw.rows store
    | .query m => Raw.query m store

variable (m : Mapping α) (store : Storage σ) (sql : String)

theorem isLawful_select : (select m store.logged).IsLawful store fun e s =>
    (e.settings store.kind s).preparation m store.kind where
  state_start := nofun
  state_set _ _ _ := rfl
  does e s := by
    cases e with
    | query => exact s.does_query
    | all => exact s.does_queryAll
    | single => exact s.does_querySingle

theorem isLawful_insert : (insert m store.logged).IsLawful store fun _ s => s.preparation m where
  state_start := nofun
  state_set _ _ _ := rfl
  does _ s := s.does_run

theorem isLawful_update : (update m store.logged).IsLawful store fun _ s => s.preparation m where
  state_start := nofun
  state_set _ _ _ := rfl
  does _ s := s.does_run

theorem isLawful_delete : (delete m store.logged).IsLawful store fun _ s => s.preparation m where
  state_start := nofun
  state_set _ _ _ := rfl
  does _ s := s.does_run

theorem isLawful_count : (count m store.logged).IsLawful store fun _ s => s.preparation m where
  state_start := nofun
  state_set _ _ _ := rfl
  does _ s := s.does_run

theorem isLawful_raw : (raw sql store.logged).IsLawful store fun _ s => s.preparation store.kind where
  state_start := nofun
  state_set args b hb := by
    have hsame : (Raw.setArgs args b).state = b.state := rfl
    rcases hstate : b.state with _ | _ | _
    · cases hb hstate
    · exact hsame.trans hstate
    · exact hsame.trans hstate
  does e s := by
    cases e with
    | rows => exact s.does_rows
    | query m => exact s.does_query

end BuilderKind

/-- **Builders run once.** For every model and every store, each builder has one
call made at most, in its first execution, and its state tells what was done
with it; every other execution is refused. A query in SQL starts configured, all
others start without settings. -/
theorem builders_run_once (m : Mapping α) (store : Storage σ) (sql : String) :
    (BuilderKind.select m store.logged).RunsOnce .unconfigured ∧
    (BuilderKind.insert m store.logged).RunsOnce .unconfigured ∧
    (BuilderKind.update m store.logged).RunsOnce .unconfigured ∧
    (BuilderKind.delete m store.logged).RunsOnce .unconfigured ∧
    (BuilderKind.count m store.logged).RunsOnce .unconfigured ∧
    (BuilderKind.raw sql store.logged).RunsOnce .configured :=
  ⟨(BuilderKind.isLawful_select m store).runsOnce, (BuilderKind.isLawful_insert m store).runsOnce,
    (BuilderKind.isLawful_update m store).runsOnce, (BuilderKind.isLawful_delete m store).runsOnce,
    (BuilderKind.isLawful_count m store).runsOnce, (BuilderKind.isLawful_raw store sql).runsOnce⟩

/-- Contacts are asked for, and then for one of them only. -/
theorem builders_run_once_contacts :
    let k := BuilderKind.select Sample.Contact.mapping (Storage.scripted .local {}).logged
    let steps : List k.Step := [.execute .all, .set (.limit { count := 1 })]
    (k.after steps ([], [])).1.state = .executed ∧
      (k.execute .single (k.after steps ([], []))).1 = .error (.alreadyExecuted "select") := by
  intro k steps
  obtain ⟨hselect, -⟩ := builders_run_once Sample.Contact.mapping (Storage.scripted .local {}) ""
  exact ⟨hselect.state_after steps ([], []), hselect.refused_after steps ([], []) .single rfl⟩

end TypedTables

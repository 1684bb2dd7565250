import TypedTables.Proofs.Query.Life
import TypedTables.Proofs.Query.Request
import TypedTables.Sample
/-!
# TypedTables — refusals come first

Whatever can be refused is refused before the store is asked: a condition that
does not compile, an update without values, and on a content store all that
such a store does not have. The content store decides the last of these once
more, for whoever asks it directly, before it asks its resolver. What is not
refused is one call.
-/

namespace TypedTables

universe u

variable {σ α : Type}

namespace BuilderKind

/-- **A builder refuses**, with some settings, to be executed: the first
execution fails, in whichever way it is done, and there is no call. -/
def Refuses (k : BuilderKind.{u} (List StoreCall × σ)) (settings : k.Settings)
    (error : QueryError) : Prop :=
  ∀ e state w, state ≠ .executed →
    k.execute e (⟨settings, state⟩, w) = (.error error, ⟨settings, .executed⟩, w)

namespace IsLawful

variable {k : BuilderKind.{u} (List StoreCall × σ)} {store : Storage σ}
  {preparation : k.Execution → k.Settings → Preparation} (h : IsLawful k store preparation)
  {settings : k.Settings}
include h

/-- What was prepared as a refusal is one. -/
theorem refuses {error : QueryError} (hrefused : ∀ e, preparation e settings = .refused error) :
    k.Refuses settings error := by
  intro e state w hstate
  have hdoes := h.does e settings
  rw [hrefused e] at hdoes
  rw [execute_of_not_executed e hstate, hdoes w]

/-- What was prepared as a call is that call. -/
theorem log_execute {e : k.Execution} {call : StoreCall} {state : BuilderState}
    (hcall : preparation e settings = .call call) (hstate : state ≠ .executed)
    (log : List StoreCall) (s : σ) :
    (k.execute e (⟨settings, state⟩, log, s)).2.2.1 = log ++ [call] := by
  have hdoes := h.does e settings
  rw [hcall] at hdoes
  rw [execute_of_not_executed e hstate, hdoes log s]

end IsLawful

end BuilderKind

/-! ## What is refused -/

namespace Preparation

variable {x : Except ClauseError α} {cs : List Clause} {fault : ClauseError}
  {next : α → Preparation}

/-- A fault in the clauses is found first. -/
theorem checked_of_firstFault (hx : FailsAs x cs) (h : FirstFault cs fault) :
    checked (x.mapError .clause) next = .refused (.clause fault) := by
  rw [hx.error h]
  rfl

/-- So is one in the only condition there is. -/
theorem checked_of_filter {filter : Option Clause} {c : Clause} {next : Sql → Preparation}
    (hfilter : filter = some c) (hc : c.compile = .error fault) :
    checked ((Clause.compileOption filter).mapError .clause) next = .refused (.clause fault) := by
  rw [hfilter]
  exact checked_of_firstFault c.failsAs_compile (.here hc)

end Preparation

namespace Select

variable {m : Mapping α} {kind : ProviderKind} {s : Select} {f : Feature}

theorem Execution.clauses_settings (e : Execution) : (e.settings kind s).clauses = s.clauses := by
  obtain ⟨limit, hsettings⟩ := e.exists_settings_eq kind s
  rw [hsettings]
  rfl

/-- For a content store it sets nothing. -/
theorem Execution.settings_content (e : Execution) : e.settings .content s = s := by
  cases e with
  | query | all => rfl
  | single => exact single_eq.trans (if_neg fun h => nomatch h.1)

/-- **A content store refuses what is needed first.** -/
theorem preparation_of_firstNeed (hcompiles : ∀ c ∈ s.clauses, c.Compiles) (hf : s.FirstNeed f) :
    s.preparation m .content = .refused (.unsupported f) := by
  obtain ⟨request, hrequest⟩ := (s.failsAs_request m).ok hcompiles
  rw [preparation_of_request hrequest, (localFeature?_eq_some_iff hrequest).2 hf]
  rfl

/-- **What compiles and fits the store is one call.** -/
theorem preparation_of_fit (hcompiles : ∀ c ∈ s.clauses, c.Compiles)
    (hfit : kind = .content → ∀ f, ¬ s.Needs f) :
    ∃ request, s.request m = .ok request ∧ s.preparation m kind = .call (.select request) := by
  obtain ⟨request, hrequest⟩ := (s.failsAs_request m).ok hcompiles
  exact ⟨request, hrequest, preparation_eq_call hrequest fun hkind =>
    (localFeature?_eq_none_iff hrequest).2 (hfit hkind)⟩

end Select

namespace ContentStore

variable {m : Mapping α} {s : Select} {request : SelectRequest} {f : Feature}

/-- **The content store decides as the builder does**, before its resolver is
asked. -/
theorem run_select_of_firstNeed (c : ContentStore) (resolver : Resolver σ)
    (h : s.request m = .ok request) (hf : s.FirstNeed f) (w : σ) :
    ((c.storage resolver).select request).run w = (.error (.unsupported f), w) := by
  have hselect : (c.storage resolver).select request = c.select resolver request := rfl
  rw [hselect, select, (Select.localFeature?_eq_some_iff h).2 hf]
  rfl

end ContentStore

/-- **Refusals come first**, for the builders of a model on a store. -/
structure RefusesFirst (m : Mapping α) (store : Storage σ) : Prop where
  /-- A select fails with the first fault in its conditions. -/
  select_fault : ∀ s : Select, (∃ c ∈ s.clauses, ¬ c.Compiles) →
    ∃ fault, FirstFault s.clauses fault ∧
      (BuilderKind.select m store.logged).Refuses s (.clause fault)
  /-- An update without values is refused, whatever its condition is. -/
  update_empty : ∀ s : Update, s.values.isEmpty = true →
    (BuilderKind.update m store.logged).Refuses s (.emptyUpdate m.table)
  update_fault : ∀ (s : Update) c fault, s.values.isEmpty = false → s.filter = some c →
    c.compile = .error fault → (BuilderKind.update m store.logged).Refuses s (.clause fault)
  delete_fault : ∀ (s : Delete) c fault, s.filter = some c → c.compile = .error fault →
    (BuilderKind.delete m store.logged).Refuses s (.clause fault)
  count_fault : ∀ (s : Count) c fault, s.filter = some c → c.compile = .error fault →
    (BuilderKind.count m store.logged).Refuses s (.clause fault)
  /-- On a content store a select whose conditions compile is refused for what it
  needs first, and so is its request by any such store, before its resolver is
  called. -/
  select_need : ∀ s : Select, (∀ c ∈ s.clauses, c.Compiles) → (∃ f, s.Needs f) →
    ∃ f request, s.FirstNeed f ∧ s.request m = .ok request ∧
      (store.kind = .content → (BuilderKind.select m store.logged).Refuses s (.unsupported f)) ∧
      ∀ (c : ContentStore) {τ : Type} (resolver : Resolver τ) w,
        ((c.storage resolver.logged).select request).run w = (.error (.unsupported f), w)
  raw_need : ∀ sql (s : Raw),
    (store.kind = .content → (BuilderKind.raw sql store.logged).Refuses s (.unsupported .rawQuery)) ∧
    ∀ (c : ContentStore) {τ : Type} (resolver : Resolver τ) w,
      ((c.storage resolver.logged).raw ⟨s.sql, s.args⟩).run w = (.error (.unsupported .rawQuery), w)
  /-- Any other select is one call. -/
  select_call : ∀ s : Select, (∀ c ∈ s.clauses, c.Compiles) →
    (store.kind = .content → ∀ f, ¬ s.Needs f) → ∀ e state log w, state ≠ .executed →
    ∃ request, (e.settings store.kind s).request m = .ok request ∧
      ((BuilderKind.select m store.logged).execute e (⟨s, state⟩, log, w)).2.2.1 =
        log ++ [.select request]

/-- **Refusals come first**, for every model and every store: nothing that is
refused reaches the store, and what is not refused is one call. -/
theorem refusals_come_first (m : Mapping α) (store : Storage σ) : RefusesFirst m store where
  select_fault s hfault := by
    obtain ⟨c, hmem, hc⟩ := hfault
    obtain ⟨fault, hfault⟩ := exists_firstFault hmem hc
    refine ⟨fault, hfault, (BuilderKind.isLawful_select m store).refuses fun e => ?_⟩
    -- a limit that is set for a single row is no condition
    refine Preparation.checked_of_firstFault (Select.failsAs_request m _) ?_
    rwa [e.clauses_settings]
  update_empty s hempty := by
    refine (BuilderKind.isLawful_update m store).refuses fun _ => ?_
    unfold Update.preparation
    rw [if_pos hempty]
  update_fault s c fault hvalues hfilter hc := by
    refine (BuilderKind.isLawful_update m store).refuses fun _ => ?_
    unfold Update.preparation
    rw [hvalues, if_neg Bool.false_ne_true]
    exact Preparation.checked_of_filter hfilter hc
  delete_fault s c fault hfilter hc :=
    (BuilderKind.isLawful_delete m store).refuses fun _ => Preparation.checked_of_filter hfilter hc
  count_fault s c fault hfilter hc :=
    (BuilderKind.isLawful_count m store).refuses fun _ => Preparation.checked_of_filter hfilter hc
  select_need s hcompiles hneeds := by
    obtain ⟨request, hrequest⟩ := (s.failsAs_request m).ok hcompiles
    obtain ⟨f, hf⟩ := Select.exists_firstNeed hrequest hneeds
    refine ⟨f, request, hf, hrequest, fun hkind => ?_, fun c _ resolver w => ?_⟩
    · refine (BuilderKind.isLawful_select m store).refuses fun e => ?_
      rw [hkind, e.settings_content]
      exact Select.preparation_of_firstNeed hcompiles hf
    · exact c.run_select_of_firstNeed resolver.logged hrequest hf w
  raw_need sql s := by
    refine ⟨fun hkind => ?_, fun c _ resolver w => rfl⟩
    refine (BuilderKind.isLawful_raw store sql).refuses fun _ => ?_
    rw [hkind]
    rfl
  select_call s hcompiles hfit e state log w hstate := by
    have hcompiles' : ∀ c ∈ (e.settings store.kind s).clauses, c.Compiles := by
      rwa [e.clauses_settings]
    have hfit' : store.kind = .content → ∀ f, ¬ (e.settings store.kind s).Needs f := by
      intro hkind
      rw [hkind, e.settings_content]
      exact hfit hkind
    obtain ⟨request, hrequest, hcall⟩ := Select.preparation_of_fit (m := m) hcompiles' hfit'
    exact ⟨request, hrequest, (BuilderKind.isLawful_select m store).log_execute hcall hstate log w⟩

/-- Contacts by whether they are starred, in groups that no condition limits. -/
def groupedContacts : Select where
  groupBy := ["starred"]
  having := some (.raw "" [])
  limit := some { count := 1 }

/-- A content store refuses them, and is not called. -/
theorem refusals_come_first_contacts :
    (∀ c ∈ groupedContacts.clauses, c.Compiles) ∧ groupedContacts.Needs .groupBy ∧
    ∃ f, groupedContacts.FirstNeed f ∧
      (BuilderKind.select Sample.Contact.mapping (Storage.scripted .content {}).logged).Refuses
        groupedContacts (.unsupported f) := by
  have hcompiles : ∀ c ∈ groupedContacts.clauses, c.Compiles := by
    have hclauses : groupedContacts.clauses = [.raw "" []] := rfl
    rw [hclauses]
    exact List.forall_mem_singleton.2 ⟨Sql.empty, rfl⟩
  have hneeds : groupedContacts.Needs .groupBy := .groupBy (List.cons_ne_nil _ _)
  obtain ⟨f, _, hfirst, _, hrefuses, _⟩ :=
    (refusals_come_first Sample.Contact.mapping (Storage.scripted .content {})).select_need
      groupedContacts hcompiles ⟨_, hneeds⟩
  exact ⟨hcompiles, hneeds, f, hfirst, hrefuses rfl⟩

end TypedTables

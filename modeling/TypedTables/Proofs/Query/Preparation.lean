import TypedTables.Proofs.Storage.Logged
import TypedTables.Query.Delete
import TypedTables.Query.Insert
import TypedTables.Query.Raw
import TypedTables.Query.Update
/-!
# TypedTables — what a query comes to

All that a query does before it asks the store is decided by its settings and
by the kind of the store: it is refused, it has nothing to ask, or there is one
call to make. Each builder has its `preparation`, which says which of these it
is, and what it runs does as was prepared: no call where it is refused, and
never more than the one.
-/

namespace TypedTables

variable {σ α β : Type}

/-- **What a query comes to** before the store is asked. -/
inductive Preparation
  /-- It fails. -/
  | refused (error : QueryError)
  /-- There is nothing to ask. -/
  | idle
  /-- The store is called, once. -/
  | call (call : StoreCall)

/-- What follows a check: the check may refuse, or else hands on what it found. -/
def Preparation.checked (check : Except QueryError α) (next : α → Preparation) : Preparation :=
  match check with
  | .error error => .refused error
  | .ok a => next a

namespace QueryM

/-- **A query does what was prepared**, on a store that logs its calls. Where it
is refused, or has nothing to ask, it leaves the store and the log alone. -/
def Does (store : Storage σ) (q : QueryM (List StoreCall × σ) α) : Preparation → Prop
  | .refused error => ∀ w, q.run w = (.error error, w)
  | .idle => ∀ w, (q.run w).2 = w
  | .call call => ∀ log s, (q.run (log, s)).2 = (log ++ [call], ((store.perform call).run s).2)

variable {store : Storage σ} {q : QueryM (List StoreCall × σ) α} {p : Preparation}

/-- An operation of the store is answered as the store answers it. -/
theorem run_ofStore (op : StoreM σ α) (w : σ) :
    (ofStore op).run w = ((op.run w).1.mapError .storage, (op.run w).2) := rfl

/-- An operation of the store is one call. -/
theorem does_ofStore (store : Storage σ) (call : StoreCall) :
    Does store (ofStore (store.logged.perform call)) (.call call) := by
  intro log s
  rw [run_ofStore, Storage.run_perform_logged]

/-- What is made of an answer does not concern the store. -/
theorem Does.mapped {f : α → QueryM (List StoreCall × σ) β} (h : Does store q p)
    (hf : ∀ a w, ((f a).run w).2 = w) : Does store (q >>= f) p := by
  have hkept : ∀ w, ((q >>= f).run w).2 = (q.run w).2 := by
    intro w
    rw [run_bind_state]
    rcases q.run w with ⟨_ | a, w'⟩
    · rfl
    · exact hf a w'
  cases p with
  | refused error =>
    intro w
    rw [run_bind_state, h w]
  | idle => exact fun w => (hkept w).trans (h w)
  | call call => exact fun log s => (hkept (log, s)).trans (h log s)

/-- **A check comes first**, and if it refuses nothing else is done. -/
theorem does_checked {check : Except QueryError α} {f : α → QueryM (List StoreCall × σ) β}
    {next : α → Preparation} (h : ∀ a, Does store (f a) (next a)) :
    Does store (ExceptT.mk (pure check) >>= f) (.checked check next) := by
  cases check with
  | error error => exact fun w => rfl
  | ok a => exact h a

/-- **One call at most**, and what was logged before stays. -/
theorem Does.calls_le (h : Does store q p) (log : List StoreCall) (s : σ) :
    ∃ calls : List StoreCall, calls.length ≤ 1 ∧ (q.run (log, s)).2.1 = log ++ calls := by
  cases p with
  | refused error =>
    refine ⟨[], Nat.zero_le 1, ?_⟩
    rw [h (log, s), List.append_nil]
  | idle =>
    refine ⟨[], Nat.zero_le 1, ?_⟩
    rw [h (log, s), List.append_nil]
  | call call =>
    refine ⟨[call], Nat.le_refl 1, ?_⟩
    rw [h log s]

end QueryM

open QueryM Preparation

variable {m : Mapping α} {store : Storage σ}

/-! ## The builders -/

namespace Select

/-- What a select comes to: its conditions are compiled, then the store has to
have what it needs. -/
def preparation (m : Mapping α) (kind : ProviderKind) (s : Select) : Preparation :=
  checked ((s.request m).mapError .clause) fun request =>
    checked (requireLocal kind request.localFeature?) fun _ => .call (.select request)

/-- A local store has all features, and a content store none. -/
theorem requireLocal_eq_ok_iff {kind : ProviderKind} {feature : Option Feature} :
    requireLocal kind feature = .ok () ↔ (kind = .content → feature = none) := by
  rcases feature with _ | feature
  · exact iff_of_true rfl fun _ => rfl
  · cases kind with
    | «local» => exact iff_of_true rfl nofun
    | content => exact iff_of_false nofun fun h => nomatch h rfl

section

variable {kind : ProviderKind} {s : Select} {request : SelectRequest}

/-- Of a select that compiles, only the features are left to check. -/
theorem preparation_of_request (h : s.request m = .ok request) : s.preparation m kind =
    checked (requireLocal kind request.localFeature?) fun _ => .call (.select request) := by
  unfold preparation
  rw [h]
  rfl

/-- **A request that the store takes is the call.** -/
theorem preparation_eq_call (h : s.request m = .ok request)
    (hfits : kind = .content → request.localFeature? = none) :
    s.preparation m kind = .call (.select request) := by
  rw [preparation_of_request h, requireLocal_eq_ok_iff.2 hfits]
  rfl

end

theorem does_query (s : Select) : Does store (s.query m store.logged) (s.preparation m store.kind) :=
  does_checked fun request => does_checked fun _ =>
    (does_ofStore store (.select request)).mapped fun _ _ => rfl

theorem does_queryAll (s : Select) :
    Does store (s.queryAll m store.logged) (s.preparation m store.kind) :=
  s.does_query.mapped fun _ _ => rfl

theorem does_querySingle (s : Select) :
    Does store (s.querySingle m store.logged) ((s.single store.kind).preparation m store.kind) :=
  (s.single store.kind).does_query.mapped fun _ _ => rfl

end Select

namespace Insert

def preparation (m : Mapping α) (s : Insert) : Preparation :=
  if s.rows.isEmpty then .idle else .call (.insert m.table s.rows s.policy)

theorem does_run (s : Insert) : Does store (s.run m store.logged) (s.preparation m) := by
  unfold run preparation
  by_cases hrows : s.rows.isEmpty = true
  · rw [if_pos hrows, if_pos hrows]
    exact fun _ => rfl
  · rw [if_neg hrows, if_neg hrows]
    exact does_ofStore store (.insert m.table s.rows s.policy)

end Insert

namespace Update

/-- What an update comes to: it has to have values, then its condition is
compiled. -/
def preparation (m : Mapping α) (s : Update) : Preparation :=
  if s.values.isEmpty then .refused (.emptyUpdate m.table)
  else
    checked ((Clause.compileOption s.filter).mapError .clause) fun selection =>
      .call (.update m.table s.values selection)

theorem does_run (s : Update) : Does store (s.run m store.logged) (s.preparation m) := by
  unfold run preparation
  by_cases hvalues : s.values.isEmpty = true
  · rw [if_pos hvalues, if_pos hvalues]
    exact fun w => rfl
  · rw [if_neg hvalues, if_neg hvalues]
    exact does_checked fun selection => does_ofStore store (.update m.table s.values selection)

end Update

namespace Delete

def preparation (m : Mapping α) (s : Delete) : Preparation :=
  checked ((Clause.compileOption s.filter).mapError .clause) fun selection =>
    .call (.delete m.table selection)

theorem does_run (s : Delete) : Does store (s.run m store.logged) (s.preparation m) :=
  does_checked fun selection => does_ofStore store (.delete m.table selection)

end Delete

namespace Count

def preparation (m : Mapping α) (s : Count) : Preparation :=
  checked ((Clause.compileOption s.filter).mapError .clause) fun selection =>
    .call (.count m.table selection)

theorem does_run (s : Count) : Does store (s.run m store.logged) (s.preparation m) :=
  does_checked fun selection => does_ofStore store (.count m.table selection)

end Count

namespace Raw

/-- What a query in SQL comes to: the store has to be a local one. -/
def preparation (kind : ProviderKind) (s : Raw) : Preparation :=
  checked (Select.requireLocal kind (some .rawQuery)) fun _ => .call (.raw ⟨s.sql, s.args⟩)

theorem does_rows (s : Raw) : Does store (s.rows store.logged) (s.preparation store.kind) :=
  does_checked fun _ => does_ofStore store (.raw ⟨s.sql, s.args⟩)

theorem does_query (s : Raw) : Does store (s.query m store.logged) (s.preparation store.kind) :=
  s.does_rows.mapped fun _ _ => rfl

end Raw

end TypedTables

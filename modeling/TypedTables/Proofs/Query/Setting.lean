import Mathlib.Data.List.Forall2
import TypedTables.Proofs.Query.Filter
/-!
# TypedTables — settings in any order

Of a select, the conditions, the groups and the limit are what was set last,
whatever else was set before, between or after; joins and ordering terms are all
that were set, in their order. Of an insert, the rows add up and the policy is
what was set last. So two builders that agree in these are executed alike, and
what is asked of the store can be read off the settings.
-/

namespace TypedTables

universe u

variable {σ α : Type}

/-! ## What is set -/

namespace SelectSetting

/-- The join that a setting adds. -/
def join? : SelectSetting → Option Join
  | .join j => some j
  | _ => none

/-- The ordering term that a setting adds. -/
def orderTerm? : SelectSetting → Option OrderTerm
  | .orderBy term => some term
  | _ => none

def groupBy? : SelectSetting → Option (List String)
  | .groupBy columns => some columns
  | _ => none

def having? : SelectSetting → Option Clause
  | .having clause => some clause
  | _ => none

def limit? : SelectSetting → Option Limit
  | .limit l => some l
  | _ => none

/-- **Settings that agree**: the same joins and the same ordering terms one
after the other, and the same last one, if there is one, of each other kind. -/
structure Agree (xs ys : List SelectSetting) : Prop where
  joins : xs.filterMap join? = ys.filterMap join?
  orderBy : xs.filterMap orderTerm? = ys.filterMap orderTerm?
  filter : (xs.filterMap filter?).getLast? = (ys.filterMap filter?).getLast?
  groupBy : (xs.filterMap groupBy?).getLast? = (ys.filterMap groupBy?).getLast?
  having : (xs.filterMap having?).getLast? = (ys.filterMap having?).getLast?
  limit : (xs.filterMap limit?).getLast? = (ys.filterMap limit?).getLast?

end SelectSetting

namespace InsertSetting

/-- The rows that a setting adds. -/
def rows (m : Mapping α) : InsertSetting α → List Values
  | .model x => [m.toValues x]
  | .models xs => xs.map m.toValues
  | .values row => [row]
  | .conflict _ => []

def policy? : InsertSetting α → Option ConflictPolicy
  | .conflict policy => some policy
  | _ => none

/-- **Settings that agree**: the same rows one after the other, and the same last
policy, if there is one. -/
structure Agree (m : Mapping α) (xs ys : List (InsertSetting α)) : Prop where
  rows : xs.flatMap (rows m) = ys.flatMap (rows m)
  policy : (xs.filterMap policy?).getLast? = (ys.filterMap policy?).getLast?

end InsertSetting

/-! ## What was set in the end -/

namespace Select

/-- **A select after some settings.** -/
def ofSettings (xs : List SelectSetting) : Select where
  filter := (xs.filterMap SelectSetting.filter?).getLast?
  joins := xs.filterMap SelectSetting.join?
  groupBy := (xs.filterMap SelectSetting.groupBy?).getLast?.getD []
  having := (xs.filterMap SelectSetting.having?).getLast?
  orderBy := xs.filterMap SelectSetting.orderTerm?
  limit := (xs.filterMap SelectSetting.limit?).getLast?

open SelectSetting in
theorem ofSettings_concat (xs : List SelectSetting) (x : SelectSetting) :
    ofSettings (xs ++ [x]) = set x (ofSettings xs) := by
  cases x <;> simp [ofSettings, set, filter?, join?, groupBy?, having?, orderTerm?, limit?]

theorem ofSettings_eq {xs ys : List SelectSetting} (h : SelectSetting.Agree xs ys) :
    ofSettings xs = ofSettings ys := by
  unfold ofSettings
  rw [h.filter, h.joins, h.groupBy, h.having, h.orderBy, h.limit]

end Select

namespace Insert

/-- **An insert after some settings.** -/
def ofSettings (m : Mapping α) (xs : List (InsertSetting α)) : Insert where
  rows := xs.flatMap (InsertSetting.rows m)
  policy := (xs.filterMap InsertSetting.policy?).getLast?.getD .ignore

open InsertSetting in
theorem ofSettings_concat (m : Mapping α) (xs : List (InsertSetting α)) (x : InsertSetting α) :
    ofSettings m (xs ++ [x]) = set m x (ofSettings m xs) := by
  cases x <;> simp [ofSettings, set, InsertSetting.rows, policy?]

theorem ofSettings_eq {m : Mapping α} {xs ys : List (InsertSetting α)} (h : InsertSetting.Agree m xs ys) :
    ofSettings m xs = ofSettings m ys := by
  unfold ofSettings
  rw [h.rows, h.policy]

end Insert

namespace BuilderKind

variable (m : Mapping α) (store : Storage σ)

/-- **A builder is executed with what was made of its settings**, if each setting
adds to what was made of those before it; by induction on the settings from the
last one. -/
theorem executed_of_made {k : BuilderKind.{u} σ} (made : List k.Setting → k.Settings)
    (hstart : k.start.settings = made []) (hready : k.start.state ≠ .executed)
    (hset : ∀ xs x b, b.settings = made xs → (k.set x b).settings = made (xs ++ [x]))
    (hstate : ∀ x b, b.state ≠ .executed → (k.set x b).state ≠ .executed)
    (xs : List k.Setting) (e : k.Execution) (s : σ) :
    k.executed xs e s =
      (((k.run e (made xs)).run s).1, ⟨made xs, .executed⟩, ((k.run e (made xs)).run s).2) := by
  have hmade : (k.after (xs.map .set) s).1.settings = made xs := by
    induction xs using List.reverseRecOn with
    | nil => exact hstart
    | append_singleton xs x ih =>
      rw [List.map_append, List.map_singleton, after_concat]
      exact hset xs x _ ih
  rw [executed_eq (not_executed_after_settings hready hstate xs s), hmade]

/-- **A select is executed with what was set in the end.** -/
theorem executed_select (xs : List SelectSetting) (e : Select.Execution) (s : σ) :
    let ran := ((select m store).run e (Select.ofSettings xs)).run s
    (select m store).executed xs e s = (ran.1, ⟨Select.ofSettings xs, .executed⟩, ran.2) :=
  executed_of_made (k := select m store) Select.ofSettings rfl nofun
    (fun xs x _ hb => (congrArg (Select.set x) hb).trans (Select.ofSettings_concat xs x).symm)
    (fun _ _ => BuilderState.configure_ne_executed) xs e s

/-- **So is an insert.** -/
theorem executed_insert (xs : List (InsertSetting α)) (s : σ) :
    let ran := ((Insert.ofSettings m xs).run m store).run s
    (insert m store).executed xs () s = (ran.1, ⟨Insert.ofSettings m xs, .executed⟩, ran.2) :=
  executed_of_made (k := insert m store) (Insert.ofSettings m) rfl nofun
    (fun xs x _ hb => (congrArg (Insert.set m x) hb).trans (Insert.ofSettings_concat m xs x).symm)
    (fun _ _ => BuilderState.configure_ne_executed) xs () s

theorem executed_select_congr {xs ys : List SelectSetting} (h : SelectSetting.Agree xs ys)
    (e : Select.Execution) (s : σ) : (select m store).executed xs e s = (select m store).executed ys e s := by
  rw [executed_select, executed_select, Select.ofSettings_eq h]

theorem executed_insert_congr {xs ys : List (InsertSetting α)} (h : InsertSetting.Agree m xs ys) (s : σ) :
    (insert m store).executed xs () s = (insert m store).executed ys () s := by
  rw [executed_insert, executed_insert, Insert.ofSettings_eq h]

end BuilderKind

/-! ## What the store is asked -/

/-- A join whose condition is compiled. -/
structure Join.CompilesTo (j : Join) (compiled : CompiledJoin) : Prop where
  kind : compiled.kind = j.kind
  table : compiled.table = j.table
  on : Clause.compileOption j.on = .ok compiled.on

theorem Join.compile_eq_ok {j : Join} {compiled : CompiledJoin} :
    j.compile = .ok compiled ↔ j.CompilesTo compiled := by
  refine map_eq_ok.trans ⟨?_, ?_⟩
  · rintro ⟨on, hon, rfl⟩
    exact ⟨rfl, rfl, hon⟩
  · rintro ⟨hkind, htable, hon⟩
    refine ⟨compiled.on, hon, ?_⟩
    rw [← hkind, ← htable]

/-- Joins are compiled one by one. -/
theorem Join.compileAll_eq_ok {joins : List Join} {compiled : List CompiledJoin} :
    Join.compileAll joins = .ok compiled ↔ List.Forall₂ Join.CompilesTo joins compiled := by
  induction joins generalizing compiled with
  | nil =>
    rw [List.forall₂_nil_left_iff]
    exact pure_eq_ok.trans eq_comm
  | cons j joins ih =>
    rw [Join.compileAll, List.forall₂_cons_left_iff]
    refine bind_eq_ok.trans ⟨?_, ?_⟩
    · rintro ⟨first, hfirst, h⟩
      obtain ⟨rest, hrest, rfl⟩ := map_eq_ok.1 h
      exact ⟨first, rest, Join.compile_eq_ok.1 hfirst, ih.1 hrest, rfl⟩
    · rintro ⟨first, rest, hfirst, hrest, rfl⟩
      exact ⟨first, Join.compile_eq_ok.2 hfirst, map_eq_ok.2 ⟨rest, ih.2 hrest, rfl⟩⟩

namespace Select

variable {m : Mapping α} {kind : ProviderKind} {s : Select} {xs : List SelectSetting}

/-- **The request of some settings**: the last conditions compiled, all joins and
ordering terms in their order, the last groups and the last limit, for the table
and the columns of the model. -/
structure IsRequestOf (m : Mapping α) (xs : List SelectSetting) (request : SelectRequest) : Prop where
  table : request.table = m.table
  columns : request.columns = m.columns
  selection : Clause.compileOption (xs.filterMap SelectSetting.filter?).getLast? = .ok request.selection
  joins : List.Forall₂ Join.CompilesTo (xs.filterMap SelectSetting.join?) request.joins
  groupBy : request.groupBy = (xs.filterMap SelectSetting.groupBy?).getLast?.getD []
  having : Clause.compileOption (xs.filterMap SelectSetting.having?).getLast? = .ok request.having
  orderBy : request.orderBy = xs.filterMap SelectSetting.orderTerm?
  limit : request.limit = (xs.filterMap SelectSetting.limit?).getLast?

theorem request_ofSettings_iff {request : SelectRequest} :
    (ofSettings xs).request m = .ok request ↔ IsRequestOf m xs request := by
  rw [request_eq_ok]
  constructor
  · rintro ⟨joins, selection, having, hjoins, hselection, hhaving, rfl⟩
    exact ⟨rfl, rfl, hselection, Join.compileAll_eq_ok.1 hjoins, rfl, hhaving, rfl, rfl⟩
  · intro h
    -- what the clauses compile to is what the request has already
    refine ⟨request.joins, request.selection, request.having, Join.compileAll_eq_ok.2 h.joins, h.selection,
      h.having, ?_⟩
    rw [← h.table, ← h.columns]
    change request = { request with
      groupBy := (xs.filterMap SelectSetting.groupBy?).getLast?.getD []
      orderBy := xs.filterMap SelectSetting.orderTerm?
      limit := (xs.filterMap SelectSetting.limit?).getLast? }
    rw [← h.groupBy, ← h.orderBy, ← h.limit]

/-- **What an execution sets itself.** A single row is asked of a local store with
a limit, unless one was set. -/
def Execution.ownSettings (kind : ProviderKind) (xs : List SelectSetting) : Execution → List SelectSetting
  | .single =>
    if kind = .local ∧ xs.filterMap SelectSetting.limit? = [] then [.limit { count := 1 }] else []
  | _ => []

theorem Execution.settings_ofSettings (e : Execution) :
    e.settings kind (ofSettings xs) = ofSettings (xs ++ e.ownSettings kind xs) := by
  cases e with
  -- neither of these sets anything
  | query | all => exact (congrArg ofSettings (List.append_nil xs)).symm
  | single =>
    have hlimit : (ofSettings xs).limit = (xs.filterMap SelectSetting.limit?).getLast? := rfl
    have hnone : (ofSettings xs).limit = none ↔ xs.filterMap SelectSetting.limit? = [] := by
      rw [hlimit, List.getLast?_eq_none_iff]
    change (ofSettings xs).single kind = _
    unfold ownSettings
    rw [single_eq]
    by_cases hset : kind = .local ∧ xs.filterMap SelectSetting.limit? = []
    · rw [if_pos (hset.imp_right hnone.2), if_pos hset, ofSettings_concat]
      rfl
    · rw [if_neg (mt (And.imp_right hnone.1) hset), if_neg hset, List.append_nil]

/-- **What is asked** of a store of some kind: the request of the settings, if
they have one and the store takes it. -/
inductive Asks (m : Mapping α) (kind : ProviderKind) (xs : List SelectSetting) : List StoreCall → Prop
  | request {request : SelectRequest} : IsRequestOf m xs request →
      (kind = .content → request.localFeature? = none) → Asks m kind xs [.select request]
  | nothing : (∀ request, IsRequestOf m xs request → kind = .content ∧ request.localFeature? ≠ none) →
      Asks m kind xs []

/-- Either there is a request that the store takes, and it is the call, or the
select is refused. -/
theorem preparation_cases (m : Mapping α) (kind : ProviderKind) (s : Select) :
    (∃ request, s.request m = .ok request ∧ (kind = .content → request.localFeature? = none) ∧
      s.preparation m kind = .call (.select request)) ∨
    ((∀ request, s.request m = .ok request → kind = .content ∧ request.localFeature? ≠ none) ∧
      ∃ error, s.preparation m kind = .refused error) := by
  rcases hs : s.request m with fault | request
  · refine .inr ⟨nofun, .clause fault, ?_⟩
    unfold preparation
    rw [hs]
    rfl
  by_cases hfits : kind = .content → request.localFeature? = none
  · exact .inl ⟨request, rfl, hfits, preparation_eq_call hs hfits⟩
  · obtain ⟨hkind, hneeds⟩ := Classical.not_imp.1 hfits
    obtain ⟨f, hf⟩ := Option.ne_none_iff_exists'.1 hneeds
    refine .inr ⟨?_, .unsupported f, ?_⟩
    · rintro _ ⟨⟩
      exact ⟨hkind, hneeds⟩
    · rw [preparation_of_request hs, hkind, hf]
      rfl

end Select

/-- What is asked for some settings of an insert: without rows nothing. -/
def Insert.calls (m : Mapping α) (xs : List (InsertSetting α)) : List StoreCall :=
  if xs.flatMap (InsertSetting.rows m) = [] then []
  else
    [.insert m.table (xs.flatMap (InsertSetting.rows m))
      ((xs.filterMap InsertSetting.policy?).getLast?.getD .ignore)]

namespace BuilderKind

variable (m : Mapping α) (store : Storage σ)

/-- **A select asks for what was set**, and for what its execution sets. -/
theorem exists_asks (xs : List SelectSetting) (e : Select.Execution) (log : List StoreCall) (w : σ) :
    ∃ calls, Select.Asks m store.kind (xs ++ e.ownSettings store.kind xs) calls ∧
      ((select m store.logged).executed xs e (log, w)).2.2.1 = log ++ calls := by
  have hdoes := (isLawful_select m store).does e (Select.ofSettings xs)
  rw [executed_select]
  rw [e.settings_ofSettings] at hdoes
  rcases Select.preparation_cases m store.kind (.ofSettings (xs ++ e.ownSettings store.kind xs)) with
    ⟨request, hrequest, hfits, hcall⟩ | ⟨hnone, error, hrefused⟩
  · rw [hcall] at hdoes
    exact ⟨_, .request (Select.request_ofSettings_iff.1 hrequest) hfits, congrArg Prod.fst (hdoes log w)⟩
  -- a refusal leaves the log as it was
  · rw [hrefused] at hdoes
    refine ⟨[], .nothing fun request hrequest => hnone request (Select.request_ofSettings_iff.2 hrequest), ?_⟩
    rw [List.append_nil]
    exact congrArg (fun ran => ran.2.1) (hdoes (log, w))

theorem log_executed_insert (xs : List (InsertSetting α)) (log : List StoreCall) (w : σ) :
    ((insert m store.logged).executed xs () (log, w)).2.2.1 = log ++ Insert.calls m xs := by
  have hdoes := (isLawful_insert m store).does () (Insert.ofSettings m xs)
  rw [executed_insert]
  unfold Insert.preparation at hdoes
  unfold Insert.calls
  by_cases hrows : xs.flatMap (InsertSetting.rows m) = []
  · have hempty : (Insert.ofSettings m xs).rows.isEmpty = true := List.isEmpty_iff.2 hrows
    rw [hempty, if_pos rfl] at hdoes
    rw [if_pos hrows, List.append_nil]
    exact congrArg Prod.fst (hdoes (log, w))
  · have hsome : (Insert.ofSettings m xs).rows.isEmpty = false := List.isEmpty_eq_false_iff.2 hrows
    rw [hsome, if_neg Bool.false_ne_true] at hdoes
    rw [if_neg hrows]
    exact congrArg Prod.fst (hdoes log w)

end BuilderKind

/-- **Settings can be made in any order.** Two selects whose settings agree are
executed alike, in whichever way: the store is asked the same, and the answer is
the same. What it is asked is the request of the settings. The same holds of two
inserts. -/
theorem settings_in_any_order (m : Mapping α) (store : Storage σ) :
    (∀ xs ys, SelectSetting.Agree xs ys → ∀ e w,
      (BuilderKind.select m store.logged).executed xs e w =
        (BuilderKind.select m store.logged).executed ys e w) ∧
    (∀ xs e log w, ∃ calls, Select.Asks m store.kind (xs ++ e.ownSettings store.kind xs) calls ∧
      ((BuilderKind.select m store.logged).executed xs e (log, w)).2.2.1 = log ++ calls) ∧
    (∀ xs ys, InsertSetting.Agree m xs ys → ∀ w,
      (BuilderKind.insert m store.logged).executed xs () w =
        (BuilderKind.insert m store.logged).executed ys () w) ∧
    ∀ xs log w, ((BuilderKind.insert m store.logged).executed xs () (log, w)).2.2.1 =
      log ++ Insert.calls m xs :=
  ⟨fun _ _ h => BuilderKind.executed_select_congr m store.logged h, BuilderKind.exists_asks m store,
    fun _ _ h => BuilderKind.executed_insert_congr m store.logged h, BuilderKind.log_executed_insert m store⟩

/-- Contacts by name: a condition that another one replaces does not matter, nor
does the ordering between them. One contact more or two at once are the same
rows, before or after the policy. -/
theorem settings_in_any_order_contacts :
    let store := Storage.scripted .content {}
    let select := BuilderKind.select Sample.Contact.mapping store.logged
    let insert := BuilderKind.insert Sample.Contact.mapping store.logged
    let byName := SelectSetting.orderBy { column := "display_name", direction := .ascending }
    let ann : Sample.Contact := { Sample.Contact.initial with displayName := some "Ann" }
    select.executed [.filter (.eq "starred" (.integer 1)), byName, .filter namedContacts] .single ([], []) =
      select.executed [.filter namedContacts, byName] .single ([], []) ∧
    insert.executed [.model ann, .conflict .abort, .model ann, .conflict .replace] () ([], []) =
      insert.executed [.conflict .replace, .models [ann, ann]] () ([], []) := by
  intro store select insert byName ann
  obtain ⟨hselect, -, hinsert, -⟩ := settings_in_any_order Sample.Contact.mapping store
  exact ⟨hselect _ _ ⟨rfl, rfl, rfl, rfl, rfl, rfl⟩ .single ([], []), hinsert _ _ ⟨rfl, rfl⟩ ([], [])⟩

end TypedTables

import TypedTables.Proofs.Clause.Compile
import TypedTables.Proofs.Query.Refusal
import TypedTables.Proofs.Storage.Logged
import TypedTables.Proofs.Storage.Question
/-!
# TypedTables — filters are kept

Whoever gets a condition without text leaves it out, and what is left out of a
delete or an update makes it one of the whole table. No clause but raw text
without characters compiles to such a condition, so every other filter that is
set reaches the store as its SQL: a local database runs it behind `WHERE`, and a
content store hands it to its resolver. A filter that has no SQL reaches no
store.
-/

namespace TypedTables

universe u

variable {σ α : Type}

/-! ## Conditions without text -/

namespace Clause

/-- **A clause that says nothing**: raw text without characters, alone in any
number of groups. -/
def IsVoid (c : Clause) : Prop := ∃ args, c.core = .raw "" args

/-- A chain of groups never ends in one more of its kind. -/
theorem core_ne_singleton (c : Clause) {k : Connective} {only : Clause} : c.core ≠ .group k [only] := by
  fun_induction core c with
  | case1 k only ih => exact ih
  | case2 c hc =>
    rintro rfl
    exact hc _ _ rfl

/-- **A clause has the SQL of what its chain of groups ends in.** -/
theorem compile_core (c : Clause) : c.core.compile = c.compile := by
  fun_induction core c with
  | case1 k only ih => rw [ih, compile]
  | case2 c hc => rfl

/-- **Every other condition writes something of its own.** -/
theorem text_ne_empty {c : Clause} {s : Sql} (h : c.compile = .ok s) (hraw : ∀ text args, c ≠ .raw text args)
    (hsingle : ∀ k only, c ≠ .group k [only]) : s.text ≠ "" := by
  -- each shape has a word of its own: a comparison, a parenthesis, or what joins the members of a group
  rcases c with ⟨column, op, value⟩ | ⟨column, values⟩ | ⟨column, low, high, negated⟩ |
    ⟨left, right⟩ | inner | ⟨k, _ | ⟨first, _ | ⟨second, rest⟩⟩⟩ | ⟨text, args⟩
  · rw [compile] at h
    rcases compileCompare_ok h with ⟨-, -, rfl⟩ | ⟨-, -, rfl⟩ | ⟨-, rfl⟩ <;> simp
  · rw [compile] at h
    obtain ⟨v, vs, -, rfl⟩ := compileIn_ok h
    simp
  · rw [compile] at h
    obtain rfl := compileBetween_ok h
    split <;> simp
  · rw [compile] at h
    obtain rfl := compileColumns_ok h
    simp
  · obtain ⟨a, -, rfl⟩ := compile_not_ok h
    simp
  · rw [compile] at h
    nomatch h
  · exact absurd rfl (hsingle k first)
  · obtain ⟨parts, hparts, rfl⟩ := compile_group_ok h
    obtain ⟨a, _, -, hrest, rfl⟩ := compileMembers_cons_ok hparts
    obtain ⟨b, _, -, -, rfl⟩ := compileMembers_cons_ok hrest
    rw [Sql.join_cons_cons]
    simp
  · exact absurd rfl (hraw text args)

/-- **Nothing compiles to nothing** but raw text that is nothing. -/
theorem isEmpty_iff_isVoid {c : Clause} {s : Sql} (h : c.compile = .ok s) :
    s.isEmpty = true ↔ c.IsVoid := by
  rw [← compile_core] at h
  rw [Sql.isEmpty, String.isEmpty_iff]
  by_cases hraw : ∃ text args, c.core = .raw text args
  · obtain ⟨text, args, hcore⟩ := hraw
    rw [hcore, compile] at h
    obtain rfl := pure_eq_ok.1 h
    unfold IsVoid
    rw [hcore]
    constructor
    · rintro rfl
      exact ⟨args, rfl⟩
    · rintro ⟨_, heq⟩
      exact (Clause.raw.inj heq).1
  · have hraw : ∀ text args, c.core ≠ .raw text args := fun text args heq => hraw ⟨text, args, heq⟩
    refine iff_of_false (text_ne_empty h hraw fun _ _ => c.core_ne_singleton) ?_
    rintro ⟨args, heq⟩
    exact hraw "" args heq

end Clause

/-! ## Calls with a condition -/

/-- The condition that a resolver gets, with its arguments. -/
def ResolverCall.condition : ResolverCall → Option String × List Value
  | .query q => (q.selection, q.args)
  | .bulkInsert .. => (none, [])
  | .update _ _ selection args => (selection, args)
  | .delete _ selection args => (selection, args)

namespace StoreCall

/-- The condition on rows that a call has, if it is one that can have one. -/
def selection? : StoreCall → Option Sql
  | .select request => some request.selection
  | .insert .. => none
  | .update _ _ selection => some selection
  | .delete _ selection => some selection
  | .count _ selection => some selection
  | .raw _ => none

/-- The same call for all rows. -/
def onAllRows : StoreCall → StoreCall
  | .select request => .select { request with selection := .empty }
  | .insert table rows policy => .insert table rows policy
  | .update table values _ => .update table values .empty
  | .delete table _ => .delete table .empty
  | .count table _ => .count table .empty
  | .raw statement => .raw statement

/-- What a call needs that only a local database has. -/
def localFeature? : StoreCall → Option Feature
  | .select request => request.localFeature?
  | .raw _ => some .rawQuery
  | _ => none

/-- **A call carries a condition** to whatever it is that stores the rows. -/
structure Carries (call : StoreCall) (condition : Sql) : Prop where
  selection : call.selection? = some condition
  /-- A local database runs the statement for all rows with the condition put
  in behind `WHERE`. -/
  statement : ∃ head tail : Sql, ∀ {δ : Type} (e : Engine δ) log c,
    LocalDatabase.ranAfter e call.onAllRows log c = log ++ [head ++ tail] ∧
    LocalDatabase.ranAfter e call log c = log ++ [head ++ .lit " WHERE " ++ condition ++ tail]
  /-- A content store that takes the call asks its resolver once, with the
  condition and its arguments. -/
  question : call.localFeature? = none →
    ∀ (store : ContentStore) {τ : Type} (resolver : Resolver τ) log w,
      ∃ asked, store.askedAfter resolver call log w = log ++ [asked] ∧
        asked.condition = (some condition.text, condition.args)

variable {call : StoreCall} {condition : Sql}

/-- The statement for all rows is the one without its condition. -/
theorem exists_statement? (h : call.selection? = some condition) (hne : condition.isEmpty = false) :
    ∃ head tail, call.onAllRows.statement? = some (head ++ tail) ∧
      call.statement? = some (head ++ .lit " WHERE " ++ condition ++ tail) := by
  have hall : Statement.whereClause .empty = .empty := rfl
  have hwhere : Statement.whereClause condition = .lit " WHERE " ++ condition := by
    rw [Statement.whereClause, hne, if_neg Bool.false_ne_true]
  -- the condition is in the middle of a select, and the last part of every other statement
  cases call with
  | insert | raw => nomatch h
  | select request =>
    cases h
    refine ⟨.lit ("SELECT " ++ request.projection ++ " FROM " ++ request.table) ++
      Sql.concat (request.joins.map CompiledJoin.sql),
      Statement.groupByClause request.groupBy ++ Statement.havingClause request.having ++
        Statement.orderByClause request.orderBy ++ Statement.limitClause request.limit, ?_, ?_⟩
    · rw [onAllRows, statement?, Statement.select, hall]
      simp only [Sql.append_empty, Sql.append_assoc]
      rfl
    · rw [statement?, Statement.select, hwhere]
      simp only [Sql.append_assoc]
  | update table values selection =>
    cases h
    refine ⟨.lit ("UPDATE " ++ table ++ " SET ") ++
      Sql.join ", " (values.entries.map Statement.assignment), .empty, ?_, ?_⟩
    · rw [onAllRows, statement?, Statement.update, hall]
    · rw [statement?, Statement.update, hwhere, Sql.append_empty, Sql.append_assoc _ (.lit " WHERE ")]
  | delete table selection =>
    cases h
    refine ⟨.lit ("DELETE FROM " ++ table), .empty, ?_, ?_⟩
    · rw [onAllRows, statement?, Statement.delete, hall]
    · rw [statement?, Statement.delete, hwhere, Sql.append_empty, Sql.append_assoc]
  | count table selection =>
    cases h
    refine ⟨.lit ("SELECT COUNT(*) FROM " ++ table), .empty, ?_, ?_⟩
    · rw [onAllRows, statement?, Statement.count, hall]
    · rw [statement?, Statement.count, hwhere, Sql.append_empty, Sql.append_assoc]

/-- A content store hands the condition on, text and arguments. -/
theorem exists_question (h : call.selection? = some condition) (hne : condition.isEmpty = false)
    (hfeature : call.localFeature? = none) (store : ContentStore) (resolver : Resolver σ)
    (log : List ResolverCall) (w : σ) :
    ∃ asked, store.askedAfter resolver call log w = log ++ [asked] ∧
      asked.condition = (some condition.text, condition.args) := by
  have htext : ContentStore.selectionText condition = some condition.text := by
    rw [ContentStore.selectionText, hne, if_neg Bool.false_ne_true]
  have hargs : ContentStore.selectionArgs condition = condition.args := by
    rw [ContentStore.selectionArgs, hne, if_neg Bool.false_ne_true]
  rw [← htext, ← hargs]
  cases call with
  | insert | raw => nomatch h
  | select request =>
    cases h
    exact ⟨_, store.askedAfter_select resolver hfeature log w, rfl⟩
  | update table values selection =>
    cases h
    exact ⟨.update (store.uri table) values _ _, rfl, rfl⟩
  | delete table selection =>
    cases h
    exact ⟨.delete (store.uri table) _ _, rfl, rfl⟩
  | count table selection =>
    cases h
    exact ⟨_, store.askedAfter_count resolver log w, rfl⟩

/-- **A condition that has text is carried.** -/
theorem carries (h : call.selection? = some condition) (hne : condition.isEmpty = false) :
    call.Carries condition where
  selection := h
  statement := by
    obtain ⟨head, tail, hall, hsome⟩ := exists_statement? h hne
    exact ⟨head, tail, fun e log c => ⟨LocalDatabase.ranAfter_of_statement? hall e log c,
      LocalDatabase.ranAfter_of_statement? hsome e log c⟩⟩
  question hfeature store _ resolver log w := exists_question h hne hfeature store resolver log w

end StoreCall

/-! ## What a filter comes to -/

/-- **What a query with a filter comes to** before a store of some kind is asked:
it is refused, or there is a call with the SQL of the filter, which a store of
the kind takes. -/
inductive Preparation.Keeps (kind : ProviderKind) (c : Clause) : Preparation → Prop
  | refused (error : QueryError) : Keeps kind c (.refused error)
  | call {call : StoreCall} {s : Sql} : c.compile = .ok s → call.selection? = some s →
    (kind = .content → call.localFeature? = none) → Keeps kind c (.call call)

namespace Preparation

variable {kind : ProviderKind} {c : Clause}

/-- A check may refuse a query with a filter like any other. -/
theorem keeps_checked {check : Except QueryError α} {next : α → Preparation}
    (h : ∀ a, check = .ok a → (next a).Keeps kind c) : (checked check next).Keeps kind c := by
  rcases hcheck : check with error | a
  · exact .refused error
  · exact h a hcheck

theorem keeps_checked_filter {filter : Option Clause} {next : Sql → StoreCall} (hfilter : filter = some c)
    (hnext : ∀ s, (next s).selection? = some s ∧ (next s).localFeature? = none) :
    (checked ((Clause.compileOption filter).mapError .clause) fun s => .call (next s)).Keeps kind c := by
  rw [hfilter, Clause.compileOption]
  rcases hc : c.compile with fault | s
  · exact .refused (.clause fault)
  · exact .call hc (hnext s).1 fun _ => (hnext s).2

end Preparation

variable {m : Mapping α} {kind : ProviderKind} {c : Clause}

namespace Select

/-- The condition on rows of a request is the SQL of the filter. -/
theorem selection_of_request {s : Select} {request : SelectRequest} (h : s.request m = .ok request) :
    Clause.compileOption s.filter = .ok request.selection := by
  obtain ⟨_, _, _, -, hselection, -, rfl⟩ := request_eq_ok.1 h
  exact hselection

theorem keeps_preparation {s : Select} (h : s.filter = some c) : (s.preparation m kind).Keeps kind c := by
  refine Preparation.keeps_checked fun request hrequest => Preparation.keeps_checked fun _ hlocal => ?_
  have hselection := selection_of_request (mapError_eq_ok.1 hrequest)
  rw [h] at hselection
  exact .call hselection rfl (requireLocal_eq_ok_iff.1 hlocal)

/-- A limit that is set for a single row is no filter. -/
theorem Execution.filter_settings (e : Execution) (s : Select) : (e.settings kind s).filter = s.filter := by
  obtain ⟨limit, hsettings⟩ := e.exists_settings_eq kind s
  rw [hsettings]

end Select

theorem Update.keeps_preparation {s : Update} (h : s.filter = some c) :
    (s.preparation m).Keeps kind c := by
  unfold preparation
  split
  · exact .refused _
  · exact Preparation.keeps_checked_filter h fun _ => ⟨rfl, rfl⟩

theorem Delete.keeps_preparation {s : Delete} (h : s.filter = some c) :
    (s.preparation m).Keeps kind c :=
  Preparation.keeps_checked_filter h fun _ => ⟨rfl, rfl⟩

theorem Count.keeps_preparation {s : Count} (h : s.filter = some c) :
    (s.preparation m).Keeps kind c :=
  Preparation.keeps_checked_filter h fun _ => ⟨rfl, rfl⟩

/-! ## Builders with a filter -/

/-- The filter that a setting sets. -/
def SelectSetting.filter? : SelectSetting → Option Clause
  | .filter clause => some clause
  | _ => none

/-- A struct stands for the row that has its key. -/
def UpdateSetting.filter? (m : Mapping α) : UpdateSetting α → Option Clause
  | .filter clause => some clause
  | .model x => some (.eq m.keyColumn (m.key x))
  | _ => none

def DeleteSetting.filter? (m : Mapping α) : DeleteSetting α → Option Clause
  | .filter clause => some clause
  | .model x => some (.eq m.keyColumn (m.key x))

/-- **A query keeps its filter** if what it comes to does. -/
theorem QueryM.Does.keeps {store : Storage σ} {q : QueryM (List StoreCall × σ) α} {p : Preparation}
    (h : Does store q p) (hp : p.Keeps store.kind c) (log : List StoreCall) (w : σ) :
    (∃ error, q.run (log, w) = (.error error, log, w)) ∨
    ∃ s call, c.compile = .ok s ∧ call.selection? = some s ∧ (q.run (log, w)).2.1 = log ++ [call] ∧
      (store.kind = .content → call.localFeature? = none) := by
  cases hp with
  | refused error => exact .inl ⟨error, h (log, w)⟩
  | @call call s hc hselection hfits => exact .inr ⟨s, call, hc, hselection, by rw [h log w], hfits⟩

namespace BuilderKind

/-- **A builder keeps its filter**, the last one that is set, on a store of some
kind that logs its calls. -/
structure KeepsFilter (k : BuilderKind.{u} (List StoreCall × σ)) (kind : ProviderKind)
    (filter? : k.Setting → Option Clause) : Prop where
  /-- A filter that has no SQL reaches no store. -/
  refused : ∀ settings c fault, (settings.filterMap filter?).getLast? = some c →
    c.compile = .error fault → ∀ e w, k.IsRefused settings e w
  /-- If the store is asked, the call carries the SQL of the filter, unless the
  filter says nothing. -/
  kept : ∀ settings c, (settings.filterMap filter?).getLast? = some c → ¬ c.IsVoid → ∀ e log w,
    k.IsRefused settings e (log, w) ∨
    ∃ s call, c.compile = .ok s ∧ s.isEmpty = false ∧
      (k.executed settings e (log, w)).2.2.1 = log ++ [call] ∧ call.Carries s ∧
      (kind = .content → call.localFeature? = none)

/-- What was set last is what the last setting sets, or else what was set last
before it. -/
theorem getLast?_filterMap_concat {β γ : Type} (value? : β → Option γ) (xs : List β) (x : β) :
    ((xs ++ [x]).filterMap value?).getLast? = (value? x).or (xs.filterMap value?).getLast? := by
  rw [List.filterMap_append, List.getLast?_append]
  rcases hx : value? x with _ | c
  · rw [List.filterMap_cons_none hx]
    rfl
  · rw [List.filterMap_cons_some hx]
    rfl

/-- **The filter of a builder is the last one that was set**, by induction on the
settings from the last one. -/
theorem filter_after {k : BuilderKind.{u} σ} {filter? : k.Setting → Option Clause}
    {filter : k.Settings → Option Clause} (hstart : filter k.start.settings = none)
    (hset : ∀ x b, filter (k.set x b).settings = (filter? x).or (filter b.settings))
    (settings : List k.Setting) (s : σ) :
    filter (k.after (settings.map .set) s).1.settings = (settings.filterMap filter?).getLast? := by
  induction settings using List.reverseRecOn with
  | nil => exact hstart
  | append_singleton settings x ih =>
    rw [List.map_append, List.map_singleton, after_concat, getLast?_filterMap_concat, ← ih]
    exact hset x _

/-- **A lawful builder keeps its filter** if what it comes to does. -/
theorem IsLawful.keepsFilter {k : BuilderKind.{u} (List StoreCall × σ)} {store : Storage σ}
    {preparation : k.Execution → k.Settings → Preparation} (h : IsLawful k store preparation)
    {filter? : k.Setting → Option Clause} (filter : k.Settings → Option Clause)
    (hstart : filter k.start.settings = none)
    (hset : ∀ x b, filter (k.set x b).settings = (filter? x).or (filter b.settings))
    (hkeeps : ∀ e s c, filter s = some c → (preparation e s).Keeps store.kind c) :
    k.KeepsFilter store.kind filter? := by
  have hcases : ∀ settings c, (settings.filterMap filter?).getLast? = some c → ∀ e log w,
      k.IsRefused settings e (log, w) ∨
      ∃ s call, c.compile = .ok s ∧ call.selection? = some s ∧
        (k.executed settings e (log, w)).2.2.1 = log ++ [call] ∧
        (store.kind = .content → call.localFeature? = none) := by
    intro settings c hlast e log w
    -- settings alone leave the store as it was, so the execution is the first one
    have hready := h.not_executed_after (w := (log, w)) (any_map_set settings)
    have hfilter := (filter_after hstart hset settings (log, w)).trans hlast
    unfold IsRefused
    rw [executed_eq hready]
    rcases (h.does e _).keeps (hkeeps e _ c hfilter) log w with ⟨error, hrun⟩ | hcall
    · rw [hrun]
      exact .inl ⟨error, rfl, rfl⟩
    · exact .inr hcall
  constructor
  · intro settings c fault hlast hfault e ⟨log, w⟩
    refine (hcases settings c hlast e log w).resolve_right ?_
    rintro ⟨s, _, hc, -⟩
    nomatch hfault.symm.trans hc
  · intro settings c hlast hvoid e log w
    refine (hcases settings c hlast e log w).imp_right ?_
    rintro ⟨s, call, hc, hselection, hlog, hfits⟩
    have hne : s.isEmpty = false := by
      rw [Bool.eq_false_iff]
      exact fun hempty => hvoid ((Clause.isEmpty_iff_isVoid hc).1 hempty)
    exact ⟨s, call, hc, hne, hlog, StoreCall.carries hselection hne, hfits⟩

variable (m : Mapping α) (store : Storage σ)

theorem keepsFilter_select :
    (select m store.logged).KeepsFilter store.kind SelectSetting.filter? :=
  (isLawful_select m store).keepsFilter Select.filter rfl
    (fun x b => by cases x <;> rfl)
    fun e s c hc => Select.keeps_preparation (e.filter_settings s ▸ hc)

theorem keepsFilter_update :
    (update m store.logged).KeepsFilter store.kind (UpdateSetting.filter? m) :=
  (isLawful_update m store).keepsFilter Update.filter rfl
    (fun x b => by cases x <;> rfl)
    fun _ _ _ hc => Update.keeps_preparation hc

theorem keepsFilter_delete :
    (delete m store.logged).KeepsFilter store.kind (DeleteSetting.filter? m) :=
  (isLawful_delete m store).keepsFilter Delete.filter rfl
    (fun x b => by cases x <;> rfl)
    fun _ _ _ hc => Delete.keeps_preparation hc

theorem keepsFilter_count : (count m store.logged).KeepsFilter store.kind some :=
  (isLawful_count m store).keepsFilter Count.filter rfl
    (fun _ _ => rfl)
    fun _ _ _ hc => Count.keeps_preparation hc

end BuilderKind

/-- **Filters are kept.** A clause compiles to SQL without text just if it is raw
text without characters, alone in any number of groups. Whatever other filter is
set last, each builder that has one gives its SQL to the store, and it is carried
to where the rows are; a filter without SQL reaches no store. -/
theorem filters_are_kept (m : Mapping α) (store : Storage σ) :
    (∀ (c : Clause) (s : Sql), c.compile = .ok s → (s.isEmpty = true ↔ c.IsVoid)) ∧
    (BuilderKind.select m store.logged).KeepsFilter store.kind SelectSetting.filter? ∧
    (BuilderKind.update m store.logged).KeepsFilter store.kind (UpdateSetting.filter? m) ∧
    (BuilderKind.delete m store.logged).KeepsFilter store.kind (DeleteSetting.filter? m) ∧
    (BuilderKind.count m store.logged).KeepsFilter store.kind some :=
  ⟨fun _ _ => Clause.isEmpty_iff_isVoid, BuilderKind.keepsFilter_select m store,
    BuilderKind.keepsFilter_update m store, BuilderKind.keepsFilter_delete m store,
    BuilderKind.keepsFilter_count m store⟩

/-- Contacts of a name, in groups of one. -/
def namedContacts : Clause := .and [.or [.eq "display_name" (.text "Ann")]]

/-- A delete first set to raw text without characters, and then to these, does
not remove all contacts: it has a condition. -/
theorem filters_are_kept_contacts :
    let k := BuilderKind.delete Sample.Contact.mapping (Storage.scripted .content {}).logged
    let settings : List k.Setting := [.filter (.and [.raw "" []]), .filter namedContacts]
    Clause.IsVoid (.and [.raw "" []]) ∧
    ∃ s call, namedContacts.compile = .ok s ∧ s.text = "display_name = ?" ∧ call.Carries s ∧
      (k.executed settings () ([], [])).2.2.1 = [call] := by
  intro k settings
  obtain ⟨hvoid, -, -, hdelete, -⟩ := filters_are_kept Sample.Contact.mapping (Storage.scripted .content {})
  have hsome : ¬ namedContacts.IsVoid := by
    rintro ⟨args, hcore⟩
    nomatch hcore
  refine ⟨(hvoid _ Sql.empty rfl).1 rfl, ?_⟩
  rcases hdelete.kept settings namedContacts rfl hsome () [] [] with ⟨error, hanswer, -⟩ |
    ⟨s, call, hc, -, hlog, hcarries, -⟩
  · nomatch hanswer
  · obtain rfl : ⟨"display_name = ?", [.text "Ann"]⟩ = s := Except.ok.inj hc
    exact ⟨_, call, hc, rfl, hcarries, hlog⟩

end TypedTables

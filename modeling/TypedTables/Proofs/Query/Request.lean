import Mathlib.Tactic.Common
import TypedTables.Proofs.Except
import TypedTables.Query.Select
/-!
# TypedTables — requests of a select

The conditions of a select are compiled one after the other, those of the joins
first, then the one on rows, then the one on groups. The request fails with the
first fault among them, and it is there if all of them compile. What it needs of
a store can be read off the settings.
-/

namespace TypedTables

variable {α β : Type}

/-! ## Faults in clauses -/

/-- There is SQL for the clause. -/
def Clause.Compiles (c : Clause) : Prop := ∃ sql, c.compile = .ok sql

/-- **The first fault** of clauses that are compiled one after the other. -/
inductive FirstFault : List Clause → ClauseError → Prop
  | here {c : Clause} {cs : List Clause} {fault : ClauseError} :
      c.compile = .error fault → FirstFault (c :: cs) fault
  | later {c : Clause} {cs : List Clause} {fault : ClauseError} :
      c.Compiles → FirstFault cs fault → FirstFault (c :: cs) fault

/-- **Clauses of which one does not compile have a first fault.** -/
theorem exists_firstFault {cs : List Clause} {c : Clause} (hmem : c ∈ cs) (hc : ¬ c.Compiles) :
    ∃ fault, FirstFault cs fault := by
  induction cs with
  | nil => cases hmem
  | cons head cs ih =>
    rcases hhead : head.compile with fault | sql
    · exact ⟨fault, .here hhead⟩
    · have hne : c ≠ head := by
        rintro rfl
        exact hc ⟨sql, hhead⟩
      obtain ⟨fault, hfault⟩ := ih ((List.mem_cons.1 hmem).resolve_left hne)
      exact ⟨fault, .later ⟨sql, hhead⟩ hfault⟩

theorem FirstFault.of_append {cs ds : List Clause} {fault : ClauseError}
    (h : FirstFault (cs ++ ds) fault) :
    FirstFault cs fault ∨ (∀ c ∈ cs, c.Compiles) ∧ FirstFault ds fault := by
  induction cs with
  | nil => exact .inr ⟨nofun, h⟩
  | cons head cs ih =>
    cases h with
    | here hhead => exact .inl (.here hhead)
    | later hhead hrest =>
      rcases ih hrest with hcs | ⟨hcs, hds⟩
      · exact .inl (.later hhead hcs)
      · exact .inr ⟨List.forall_mem_cons.2 ⟨hhead, hcs⟩, hds⟩

/-- **A step that fails as some clauses do**: with their first fault, and not at
all where there is none. -/
structure FailsAs (x : Except ClauseError α) (cs : List Clause) : Prop where
  error : ∀ {fault}, FirstFault cs fault → x = .error fault
  ok : (∀ c ∈ cs, c.Compiles) → ∃ a, x = .ok a

namespace FailsAs

variable {x : Except ClauseError α} {f : α → Except ClauseError β} {cs ds : List Clause}

theorem pure (a : α) : FailsAs (Pure.pure a) [] where
  error h := nomatch h
  ok _ := ⟨a, rfl⟩

/-- A step after another fails as the clauses of the two, in their order. -/
theorem bind (hx : FailsAs x cs) (hf : ∀ a, FailsAs (f a) ds) : FailsAs (x >>= f) (cs ++ ds) where
  error h := by
    rcases h.of_append with hcs | ⟨hcs, hds⟩
    · rw [hx.error hcs]
      rfl
    · obtain ⟨a, rfl⟩ := hx.ok hcs
      exact (hf a).error hds
  ok h := by
    rw [List.forall_mem_append] at h
    obtain ⟨a, rfl⟩ := hx.ok h.1
    exact (hf a).ok h.2

theorem map (hx : FailsAs x cs) (f : α → β) : FailsAs (f <$> x) cs where
  error h := by
    rw [hx.error h]
    rfl
  ok h := by
    obtain ⟨a, rfl⟩ := hx.ok h
    exact ⟨f a, rfl⟩

/-- Where one clause does not compile, the step fails. -/
theorem ok_iff (hx : FailsAs x cs) : (∃ a, x = .ok a) ↔ ∀ c ∈ cs, c.Compiles := by
  refine ⟨?_, hx.ok⟩
  rintro ⟨a, rfl⟩ c hmem
  by_contra hc
  obtain ⟨fault, hfault⟩ := exists_firstFault hmem hc
  cases hx.error hfault

theorem error_iff (hx : FailsAs x cs) {fault : ClauseError} : x = .error fault ↔ FirstFault cs fault := by
  refine ⟨?_, hx.error⟩
  rintro rfl
  have hsome : ¬ ∀ c ∈ cs, c.Compiles := fun hall => by
    obtain ⟨a, ha⟩ := hx.ok hall
    cases ha
  obtain ⟨c, hc⟩ := not_forall.1 hsome
  obtain ⟨hmem, hc⟩ := Classical.not_imp.1 hc
  obtain ⟨first, hfirst⟩ := exists_firstFault hmem hc
  rwa [Except.error.inj (hx.error hfirst)]

end FailsAs

theorem Clause.failsAs_compile (c : Clause) : FailsAs c.compile [c] where
  error h := by
    cases h with
    | here hc => exact hc
    | later _ h => cases h
  ok h := h c (List.mem_singleton_self c)

theorem Clause.failsAs_compileOption (c : Option Clause) :
    FailsAs (Clause.compileOption c) c.toList := by
  cases c with
  | none => exact .pure Sql.empty
  | some c => exact c.failsAs_compile

/-- Joins fail as their conditions do, in their order. -/
theorem Join.failsAs_compileAll (joins : List Join) :
    FailsAs (Join.compileAll joins) (joins.filterMap (·.on)) := by
  induction joins with
  | nil => exact .pure []
  | cons j joins ih =>
    have hj : FailsAs j.compile j.on.toList :=
      (Clause.failsAs_compileOption j.on).map (CompiledJoin.mk j.kind j.table)
    have hon : (j :: joins).filterMap (·.on) = j.on.toList ++ joins.filterMap (·.on) := by
      rw [List.filterMap_cons]
      rcases j.on with _ | c <;> rfl
    rw [hon]
    exact hj.bind fun compiled => ih.map (compiled :: ·)

/-! ## What a request asks for -/

namespace SelectRequest

/-- The features that only a local database has, in the order in which they are
looked for. -/
def localFeatures : List Feature := [.join, .groupBy, .having, .limit]

/-- Whether a request has a part for which the feature is needed. -/
def asks (r : SelectRequest) : Feature → Bool
  | .join => !r.joins.isEmpty
  | .groupBy => !r.groupBy.isEmpty
  | .having => !r.having.isEmpty
  | .limit => r.limit.isSome
  | .rawQuery => false

theorem localFeature?_eq_find? (r : SelectRequest) : r.localFeature? = localFeatures.find? r.asks := by
  unfold localFeature? localFeatures
  simp only [List.find?_cons, List.find?_nil, asks]
  cases r.joins.isEmpty <;> cases r.groupBy.isEmpty <;> cases r.having.isEmpty <;>
    cases r.limit.isSome <;> rfl

end SelectRequest

/-! ## Settings of a select -/

namespace Select

variable {m : Mapping α} {s : Select} {request : SelectRequest} {f : Feature}

/-- The conditions of a select, in the order in which they are compiled. -/
def clauses (s : Select) : List Clause :=
  s.joins.filterMap (·.on) ++ s.filter.toList ++ s.having.toList

/-- **A request fails as the conditions do.** -/
theorem failsAs_request (m : Mapping α) (s : Select) : FailsAs (s.request m) s.clauses := by
  unfold clauses
  rw [List.append_assoc]
  refine (Join.failsAs_compileAll s.joins).bind fun joins => ?_
  exact (Clause.failsAs_compileOption s.filter).bind fun selection =>
    (Clause.failsAs_compileOption s.having).map _

/-- **What a select needs** that only a local database has. A condition on
groups whose SQL is empty asks for nothing. -/
inductive Needs (s : Select) : Feature → Prop
  | join : s.joins ≠ [] → s.Needs .join
  | groupBy : s.groupBy ≠ [] → s.Needs .groupBy
  | having {c : Clause} {sql : Sql} :
      s.having = some c → c.compile = .ok sql → sql.text ≠ "" → s.Needs .having
  | limit {limit : Limit} : s.limit = some limit → s.Needs .limit

theorem Needs.mem_localFeatures (h : s.Needs f) : f ∈ SelectRequest.localFeatures := by
  cases h <;> decide

/-- **The first need** of a select, in the order in which they are looked for. -/
def FirstNeed (s : Select) (f : Feature) : Prop :=
  ∃ before after, SelectRequest.localFeatures = before ++ f :: after ∧ s.Needs f ∧
    ∀ g ∈ before, ¬ s.Needs g

/-- **A request is its conditions compiled**, and all else as it was set. -/
theorem request_eq_ok : s.request m = .ok request ↔ ∃ joins selection having,
    Join.compileAll s.joins = .ok joins ∧ Clause.compileOption s.filter = .ok selection ∧
    Clause.compileOption s.having = .ok having ∧
    request = { table := m.table, columns := m.columns, selection, joins, groupBy := s.groupBy, having,
                orderBy := s.orderBy, limit := s.limit } := by
  constructor
  · intro h
    obtain ⟨joins, hjoins, h⟩ := bind_eq_ok.1 h
    obtain ⟨selection, hselection, h⟩ := bind_eq_ok.1 h
    obtain ⟨having, hhaving, rfl⟩ := map_eq_ok.1 h
    exact ⟨joins, selection, having, hjoins, hselection, hhaving, rfl⟩
  · rintro ⟨joins, selection, having, hjoins, hselection, hhaving, rfl⟩
    exact bind_eq_ok.2 ⟨joins, hjoins, bind_eq_ok.2 ⟨selection, hselection, map_eq_ok.2 ⟨having, hhaving, rfl⟩⟩⟩

/-- What a request has of the settings. -/
theorem request_ok (h : s.request m = .ok request) :
    (request.joins = [] ↔ s.joins = []) ∧ request.groupBy = s.groupBy ∧
    Clause.compileOption s.having = .ok request.having ∧ request.limit = s.limit := by
  obtain ⟨joins, _, having, hjoins, -, hhaving, rfl⟩ := request_eq_ok.1 h
  refine ⟨?_, rfl, hhaving, rfl⟩
  rcases hs : s.joins with _ | ⟨j, js⟩
  · rw [hs] at hjoins
    exact iff_of_true (Except.ok.inj hjoins).symm rfl
  · rw [hs] at hjoins
    obtain ⟨compiled, -, hjoins⟩ := bind_eq_ok.1 hjoins
    obtain ⟨rest, -, rfl⟩ := map_eq_ok.1 hjoins
    exact iff_of_false (List.cons_ne_nil _ _) (List.cons_ne_nil _ _)

/-- **A request asks for what the settings need.** -/
theorem asks_iff (h : s.request m = .ok request) : request.asks f = true ↔ s.Needs f := by
  obtain ⟨hjoins, hgroupBy, hhaving, hlimit⟩ := request_ok h
  cases f with
  | join =>
    have hasks : request.asks .join = true ↔ request.joins ≠ [] := by simp [SelectRequest.asks]
    rw [hasks, Ne, hjoins]
    exact ⟨.join, fun | .join hne => hne⟩
  | groupBy =>
    have hasks : request.asks .groupBy = true ↔ request.groupBy ≠ [] := by simp [SelectRequest.asks]
    rw [hasks, hgroupBy]
    exact ⟨.groupBy, fun | .groupBy hne => hne⟩
  | having =>
    have hasks : request.asks .having = true ↔ request.having.text ≠ "" := by
      simp [SelectRequest.asks, Sql.isEmpty]
    rw [hasks]
    constructor
    · intro hne
      -- without a condition nothing is compiled, and that has no text
      rcases hs : s.having with _ | c
      · rw [hs] at hhaving
        rw [← Except.ok.inj hhaving] at hne
        exact absurd rfl hne
      · rw [hs] at hhaving
        exact .having hs hhaving hne
    · rintro (_ | _ | ⟨hs, hc, hne⟩ | _)
      rw [hs] at hhaving
      rwa [Except.ok.inj (hhaving.symm.trans hc)]
  | limit =>
    have hasks : request.asks .limit = true ↔ ∃ limit, request.limit = some limit := by
      simp [SelectRequest.asks, Option.isSome_iff_exists]
    rw [hasks, hlimit]
    exact ⟨fun ⟨_, hl⟩ => .limit hl, fun | .limit hl => ⟨_, hl⟩⟩
  | rawQuery => exact ⟨nofun, nofun⟩

/-- **The feature for which a request is refused is the first need.** -/
theorem localFeature?_eq_some_iff (h : s.request m = .ok request) :
    request.localFeature? = some f ↔ s.FirstNeed f := by
  rw [SelectRequest.localFeature?_eq_find?, List.find?_eq_some_iff_append]
  constructor
  · rintro ⟨hf, before, after, heq, hbefore⟩
    refine ⟨before, after, heq, (asks_iff h).1 hf, fun g hg hneeds => ?_⟩
    have hnot := hbefore g hg
    rw [(asks_iff h).2 hneeds] at hnot
    cases hnot
  · rintro ⟨before, after, heq, hf, hbefore⟩
    refine ⟨(asks_iff h).2 hf, before, after, heq, fun g hg => ?_⟩
    rw [Bool.not_eq_true']
    exact Bool.eq_false_iff.2 fun hasks => hbefore g hg ((asks_iff h).1 hasks)

theorem localFeature?_eq_none_iff (h : s.request m = .ok request) :
    request.localFeature? = none ↔ ∀ f, ¬ s.Needs f := by
  rw [SelectRequest.localFeature?_eq_find?, List.find?_eq_none]
  constructor
  · exact fun hnone f hneeds => hnone f hneeds.mem_localFeatures ((asks_iff h).2 hneeds)
  · exact fun hnone f _ hasks => hnone f ((asks_iff h).1 hasks)

/-- What needs something has a first need. -/
theorem exists_firstNeed (h : s.request m = .ok request) (hneeds : ∃ f, s.Needs f) :
    ∃ f, s.FirstNeed f := by
  rcases hf : request.localFeature? with _ | f
  · obtain ⟨f, hneeds⟩ := hneeds
    exact absurd hneeds ((localFeature?_eq_none_iff h).1 hf f)
  · exact ⟨f, (localFeature?_eq_some_iff h).1 hf⟩

end Select

end TypedTables

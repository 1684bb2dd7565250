import TypedTables.Proofs.Sql.Piece
import TypedTables.Query.Select
/-!
# TypedTables — placeholders of statements

Every statement carries its parts: the values it writes, the conditions of
its joins in their order, the condition on rows and the one on groups. So it
has as many placeholders as arguments, and each value is bound to the
placeholder that was written for it.
-/

namespace TypedTables

namespace Piece

open Sql Clause

variable {p : Piece} {s : Sql}

theorem sizeOf_children {q : Piece} (h : q ∈ p.children) : sizeOf q < sizeOf p := by
  rcases p with (⟨column, op, value⟩ | ⟨column, values⟩ | ⟨column, low, high, negated⟩ | _ | c |
    ⟨k, cs⟩ | _) | entries | ⟨column, value⟩ | values | value
  all_goals simp only [children, List.mem_map, List.mem_cons, List.not_mem_nil, or_false] at h
  · split at h
    · nomatch h
    · obtain rfl := List.mem_singleton.1 h
      simp only [argument.sizeOf_spec, condition.sizeOf_spec, Clause.compare.sizeOf_spec]
      omega
  · obtain ⟨v, hv, rfl⟩ := h
    have := List.sizeOf_lt_of_mem hv
    simp only [argument.sizeOf_spec, condition.sizeOf_spec, Clause.isIn.sizeOf_spec]
    omega
  · simp only [condition.sizeOf_spec, Clause.between.sizeOf_spec]
    rcases h with rfl | rfl <;> rw [argument.sizeOf_spec] <;> omega
  · subst h
    simp only [condition.sizeOf_spec, Clause.not.sizeOf_spec]
    omega
  · obtain ⟨c, hc, rfl⟩ := h
    have := List.sizeOf_lt_of_mem hc
    simp only [condition.sizeOf_spec, Clause.group.sizeOf_spec]
    omega
  · obtain ⟨e, he, rfl⟩ := h
    have := List.sizeOf_lt_of_mem he
    simp only [assignment.sizeOf_spec, assignments.sizeOf_spec]
    omega
  · subst h
    simp only [argument.sizeOf_spec, assignment.sizeOf_spec, Prod.mk.sizeOf_spec]
    omega
  · obtain ⟨v, hv, rfl⟩ := h
    have := List.sizeOf_lt_of_mem hv
    simp only [argument.sizeOf_spec, row.sizeOf_spec]
    omega

theorem IsMarked.children (hm : p.IsMarked) : ∀ q ∈ p.children, q.IsMarked := by
  intro q hq
  rcases p with (⟨column, op, value⟩ | ⟨column, values⟩ | ⟨column, low, high, negated⟩ | _ | c |
    ⟨k, cs⟩ | _) | entries | entry | values | value
  all_goals simp only [Piece.children, List.mem_map, List.mem_cons, List.not_mem_nil, or_false] at hq
  · split at hq
    · nomatch hq
    · obtain rfl := List.mem_singleton.1 hq
      trivial
  · obtain ⟨v, -, rfl⟩ := hq
    trivial
  · rcases hq with rfl | rfl <;> trivial
  · subst hq
    exact hm
  · obtain ⟨c, hc, rfl⟩ := hq
    exact areMarked_iff.1 hm c hc
  · obtain ⟨e, he, rfl⟩ := hq
    exact hm e he
  · subst hq
    trivial
  · obtain ⟨v, -, rfl⟩ := hq
    trivial

/-- A part is about the values that the parts in it are about. -/
theorem flatMap_arguments_children (hl : ¬p.IsLeaf) :
    p.children.flatMap arguments = p.arguments := by
  rcases p with (⟨column, op, value⟩ | ⟨column, values⟩ | ⟨column, low, high, negated⟩ | _ | c |
    ⟨k, cs⟩ | _) | entries | entry | values | value
  all_goals simp only [children, arguments, Clause.arguments]
  · cases value <;> rfl
  · simp [List.flatMap_map, arguments]
  · rfl
  · rfl
  · simp [arguments]
  · rw [argumentsOf_eq_flatMap, List.flatMap_map]
    rfl
  · exact absurd trivial hl
  · rw [List.flatMap_map]
    induction entries with
    | nil => rfl
    | cons e es ih => exact congrArg (e.2 :: ·) (ih id)
  · simp [arguments]
  · simp [List.flatMap_map, arguments]
  · exact absurd trivial hl

theorem forall₂_sql {α : Type} {f : α → Sql} {g : α → Piece} (h : ∀ a, (g a).sql = .ok (f a))
    (as : List α) : List.Forall₂ (fun s q => q.sql = .ok s) (as.map f) (as.map g) := by
  rw [List.forall₂_map_left_iff, List.forall₂_map_right_iff]
  exact List.forall₂_same.2 fun a _ => h a

/-- The members of a group are written with or without parentheses. -/
theorem weaves_compileMembers {cs : List Clause} {parts : List Sql}
    (h : compileMembers cs = .ok parts) :
    ∃ frags, List.Forall₂ (fun s f => Weaves s [f]) parts frags ∧
      List.Forall₂ (fun f q => q.sql = .ok f) frags (cs.map condition) := by
  induction cs generalizing parts with
  | nil =>
    obtain rfl := Except.ok.inj h
    exact ⟨[], .nil, .nil⟩
  | cons c cs ih =>
    obtain ⟨a, rest, ha, hrest, rfl⟩ := compileMembers_cons_ok h
    obtain ⟨frags, hw, hs⟩ := ih hrest
    refine ⟨a :: frags, .cons ?_ hw, .cons ha hs⟩
    split
    · exact (Weaves.single a).parens
    · exact .single a

/-- A text is woven from what some parts write. -/
def IsWoven (s : Sql) (qs : List Piece) : Prop :=
  ∃ frags, Weaves s frags ∧ List.Forall₂ (fun f q => q.sql = .ok f) frags qs

theorem isWoven_compare {column : String} {op : Operator} {value : Value} (hm : marks column = 0)
    (h : compileCompare column op value = .ok s) :
    IsWoven s (condition (.compare column op value)).children := by
  have hop : marks op.sql = 0 := by cases op <;> decide
  obtain ⟨rfl, rfl, rfl⟩ | ⟨rfl, rfl, rfl⟩ | ⟨hv, rfl⟩ := compileCompare_ok h
  · exact ⟨[], .lit (by rw [marks_append, hm]; decide), .nil⟩
  · exact ⟨[], .lit (by rw [marks_append, hm]; decide), .nil⟩
  · have hc : (condition (.compare column op value)).children = [argument value] := by
      cases value <;> first | rfl | exact absurd rfl hv
    have ht : marks (column ++ " " ++ op.sql ++ " ") = 0 := by
      simp only [marks_append, hm, hop]
      decide
    rw [hc]
    exact ⟨[bind value], .text ht (.single _), .cons rfl .nil⟩

theorem isWoven_isIn {column : String} {values : List Value} (hm : marks column = 0)
    (h : compileIn column values = .ok s) : IsWoven s (condition (.isIn column values)).children := by
  obtain ⟨v, vs, -, rfl⟩ := compileIn_ok h
  exact ⟨values.map bind, .text (by rw [marks_append, hm]; decide)
    (Weaves.join_self (by decide) _).parens, forall₂_sql (fun _ => rfl) values⟩

theorem isWoven_between {column : String} {low high : Value} {negated : Bool} (hm : marks column = 0)
    (h : compileBetween column low high negated = .ok s) :
    IsWoven s (condition (.between column low high negated)).children := by
  have hr : Weaves (lit (column ++ " BETWEEN ") ++ bind low ++ lit " AND " ++ bind high)
      [bind low, bind high] := by
    simp only [append_assoc]
    exact .text (by rw [marks_append, hm]; decide) (.part (.text (by decide) (.single (bind high))))
  refine ⟨[bind low, bind high], ?_, .cons rfl (.cons rfl .nil)⟩
  rw [compileBetween_ok h]
  split
  · exact .text (by decide) hr.parens
  · exact hr

theorem isWoven_columns {left right : String} (hl : marks left = 0) (hr : marks right = 0)
    (h : compileColumns left right = .ok s) : IsWoven s [] := by
  obtain rfl := compileColumns_ok h
  refine ⟨[], .lit ?_, .nil⟩
  rw [marks_append, marks_append, hl, hr]
  decide

/-- What a condition writes is woven from what the parts in it write. -/
theorem isWoven_condition {c : Clause} (hm : c.IsMarked) (hl : ¬(condition c).IsLeaf)
    (h : c.compile = .ok s) : IsWoven s (condition c).children := by
  rcases c with ⟨column, op, value⟩ | ⟨column, values⟩ | ⟨column, low, high, negated⟩ |
    ⟨left, right⟩ | c | ⟨k, _ | ⟨c, _ | ⟨d, rest⟩⟩⟩ | _
  · exact isWoven_compare hm h
  · exact isWoven_isIn hm h
  · exact isWoven_between hm h
  · exact isWoven_columns hm.1 hm.2 h
  · obtain ⟨a, ha, rfl⟩ := compile_not_ok h
    exact ⟨[a], .text (by decide) (Weaves.single a).parens, .cons ha .nil⟩
  -- a group of no members is refused, and one of a single member is that member
  · nomatch h
  · exact ⟨[s], .single s, .cons h .nil⟩
  · obtain ⟨parts, hp, rfl⟩ := compile_group_ok h
    obtain ⟨frags, hw, hs⟩ := weaves_compileMembers hp
    exact ⟨frags, .join (by cases k <;> decide) hw, hs⟩
  · exact absurd trivial hl

/-- What a part writes is woven from what the parts in it write. -/
theorem isWoven_children (hm : p.IsMarked) (hl : ¬p.IsLeaf) (h : p.sql = .ok s) :
    IsWoven s p.children := by
  rcases p with c | entries | entry | values | value
  · exact isWoven_condition hm hl h
  · obtain rfl := Except.ok.inj h
    exact ⟨_, .join_self (by decide) _, forall₂_sql (fun _ => rfl) entries⟩
  · have hm : marks entry.1 = 0 := hm
    obtain rfl := Except.ok.inj h
    exact ⟨[bind entry.2], .text (by rw [marks_append, hm]; decide) (.single _), .cons rfl .nil⟩
  · obtain rfl := Except.ok.inj h
    exact ⟨_, .join_self (by decide) _, forall₂_sql (fun _ => rfl) values⟩
  · exact absurd trivial hl

/-- **What a part writes carries the part**, by induction on the size of the
part. -/
theorem carries {p : Piece} {s : Sql} (hm : p.IsMarked) (h : p.sql = .ok s) : s.Carries [p] := by
  by_cases hl : p.IsLeaf
  · exact .leaf hl hm h
  · obtain ⟨frags, hw, hs⟩ := isWoven_children hm hl h
    have hparts : ∀ q ∈ p.children, ∀ f, q.sql = .ok f → f.Carries [q] := fun q hq f hf =>
      have := sizeOf_children hq
      carries (hm.children q hq) hf
    refine .node (.of_weaves hw ?_) (flatMap_arguments_children hl) h
    refine List.forall₂_iff_zip.2 ⟨hs.length_eq, fun hz => ?_⟩
    exact hparts _ (List.of_mem_zip hz).2 _ (List.forall₂_zip hs hz)
termination_by sizeOf p

end Piece

/-! ## Statements -/

open Piece

namespace Sql.Carries

/-- A condition that may be missing carries itself. -/
theorem compileOption {filter : Option Clause} {s : Sql} (hm : ∀ c ∈ filter, c.IsMarked)
    (h : Clause.compileOption filter = .ok s) : s.Carries (filter.toList.map condition) := by
  rcases filter with _ | c
  · obtain rfl := Except.ok.inj h
    exact .empty
  · exact Piece.carries (hm c rfl) h

variable {s : Sql} {ps : List Piece}

/-- A condition that is left out is one without values. -/
theorem of_isEmpty (h : s.Carries ps) {start : String} (hs : marks start = 0) :
    (if s.isEmpty then Sql.empty else Sql.lit start ++ s).Carries ps := by
  split
  case isTrue he =>
    obtain rfl := h.balanced.eq_empty he
    exact h
  case isFalse => exact (lit hs).append h

theorem parens (h : s.Carries ps) : s.parens.Carries ps := by
  have hopen : (Sql.lit "(").Carries [] := lit (by decide)
  have hclose : (Sql.lit ")").Carries [] := lit (by decide)
  have hp := (hopen.append h).append hclose
  rwa [List.nil_append, List.append_nil] at hp

theorem whereClause (h : s.Carries ps) : (Statement.whereClause s).Carries ps :=
  h.of_isEmpty (by decide)

theorem havingClause (h : s.Carries ps) : (Statement.havingClause s).Carries ps :=
  h.of_isEmpty (by decide)

end Sql.Carries

namespace Join

/-- The conditions of joins, in their order. -/
def parts (js : List Join) : List Piece := (js.filterMap Join.on).map condition

/-- The text of a join carries its condition. -/
theorem carries_sql {j : Join} {compiled : CompiledJoin} (ht : Sql.marks j.table = 0)
    (hm : ∀ c ∈ j.on, c.IsMarked) (h : j.compile = .ok compiled) :
    compiled.sql.Carries (parts [j]) := by
  obtain ⟨on, hon, rfl⟩ := map_eq_ok.1 h
  have hstart : Sql.marks (" " ++ j.kind.sql ++ " " ++ j.table) = 0 := by
    have hk : Sql.marks j.kind.sql = 0 := by cases j.kind <;> decide
    simp only [Sql.marks_append, hk, ht]
    decide
  have hparts : parts [j] = j.on.toList.map condition := by
    rcases j with ⟨_, _, _ | _⟩ <;> rfl
  rw [hparts]
  exact (Sql.Carries.lit hstart).append ((Sql.Carries.compileOption hm hon).of_isEmpty (by decide))

theorem parts_cons (j : Join) (js : List Join) : parts (j :: js) = parts [j] ++ parts js := by
  rcases j with ⟨_, _, _ | _⟩ <;> rfl

theorem carries_compileAll {js : List Join} {compiled : List CompiledJoin}
    (ht : ∀ j ∈ js, Sql.marks j.table = 0) (hm : ∀ j ∈ js, ∀ c ∈ j.on, c.IsMarked)
    (h : compileAll js = .ok compiled) :
    (Sql.concat (compiled.map CompiledJoin.sql)).Carries (parts js) := by
  induction js generalizing compiled with
  | nil =>
    obtain rfl := Except.ok.inj h
    exact .empty
  | cons j js ih =>
    obtain ⟨first, hfirst, h⟩ := bind_eq_ok.1 h
    obtain ⟨rest, hrest, rfl⟩ := map_eq_ok.1 h
    rw [List.map_cons, Sql.concat_cons, parts_cons]
    refine (carries_sql (ht j List.mem_cons_self) (hm j List.mem_cons_self) hfirst).append ?_
    exact ih (fun k hk => ht k (List.mem_cons_of_mem j hk))
      (fun k hk => hm k (List.mem_cons_of_mem j hk)) hrest

end Join

namespace SelectRequest

open Sql

/-- No name in a query has a placeholder in it. -/
structure IsUnmarked (r : SelectRequest) : Prop where
  table : marks r.table = 0
  columns : ∀ c ∈ r.columns, marks c = 0
  groupBy : ∀ c ∈ r.groupBy, marks c = 0
  orderBy : ∀ term ∈ r.orderBy, marks term.column = 0

variable {r : SelectRequest}

theorem IsUnmarked.projection (h : r.IsUnmarked) : marks r.projection = 0 := by
  unfold SelectRequest.projection
  split
  · decide
  split
  · exact marks_intercalate (by decide) h.columns
  · refine marks_intercalate (by decide) fun text ht => ?_
    obtain ⟨c, hc, rfl⟩ := List.mem_map.1 ht
    unfold qualifiedColumn
    split
    · exact h.columns c hc
    · simp only [marks_append, h.table, h.columns c hc]
      decide

end SelectRequest

namespace Statement

open Sql

variable {s : Sql} {ps : List Piece}

theorem carries_groupBy {columns : List String} (h : ∀ c ∈ columns, marks c = 0) :
    (groupByClause columns).Carries [] := by
  unfold groupByClause
  split
  · exact .empty
  · refine .lit ?_
    rw [marks_append, marks_intercalate (by decide) h]
    decide

theorem marks_orderTerm {term : OrderTerm} (h : marks term.column = 0) : marks term.sql = 0 := by
  rcases term with ⟨column, _ | _ | _, _ | _ | _ | _⟩ <;>
    simp only [OrderTerm.sql, Collation.sql?, marks_append, show marks column = 0 from h] <;> decide

theorem carries_orderBy {terms : List OrderTerm} (h : ∀ term ∈ terms, marks term.column = 0) :
    (orderByClause terms).Carries [] := by
  unfold orderByClause OrderTerm.listSql?
  by_cases he : terms.isEmpty
  · simp only [he, if_true]
    exact .empty
  · simp only [he]
    refine .lit ?_
    rw [marks_append, marks_intercalate (by decide) fun text ht => ?_]
    · decide
    · obtain ⟨term, hterm, rfl⟩ := List.mem_map.1 ht
      exact marks_orderTerm (h term hterm)

theorem carries_limit (limit : Option Limit) : (limitClause limit).Carries [] := by
  rcases limit with _ | l
  · exact .empty
  · refine .lit ?_
    unfold Limit.sql
    split <;> simp only [marks_append, marks_natToString] <;> decide

/-- The query of one table carries the conditions of its joins, the one on
rows and the one on groups. -/
theorem carries_select {joins : List Join} {filter having : Option Clause} {r : SelectRequest}
    (hr : r.IsUnmarked) (ht : ∀ j ∈ joins, marks j.table = 0)
    (hm : ∀ j ∈ joins, ∀ c ∈ j.on, c.IsMarked) (hf : ∀ c ∈ filter, c.IsMarked)
    (hg : ∀ c ∈ having, c.IsMarked) (hjoins : Join.compileAll joins = .ok r.joins)
    (hselection : Clause.compileOption filter = .ok r.selection)
    (hhaving : Clause.compileOption having = .ok r.having) :
    (select r).Carries
      (Join.parts joins ++ filter.toList.map condition ++ having.toList.map condition) := by
  have hstart : marks ("SELECT " ++ r.projection ++ " FROM " ++ r.table) = 0 := by
    simp only [marks_append, hr.projection, hr.table]
    decide
  have hc := (((((Sql.Carries.lit hstart).append (Join.carries_compileAll ht hm hjoins)).append
    (Sql.Carries.compileOption hf hselection).whereClause).append (carries_groupBy hr.groupBy)).append
      (Sql.Carries.compileOption hg hhaving).havingClause).append
        (carries_orderBy hr.orderBy) |>.append (carries_limit r.limit)
  simp only [List.nil_append, List.append_nil] at hc
  exact hc

theorem carries_insert {table : String} {values : Values} (policy : ConflictPolicy)
    (ht : marks table = 0) (hv : ∀ c ∈ values.columns, marks c = 0) :
    (insert table values policy).Carries [row values.values] := by
  have hrow : (Sql.join ", " (values.values.map Sql.bind)).Carries [row values.values] :=
    Piece.carries trivial rfl
  have hp : marks policy.sql = 0 := by cases policy <;> decide
  have hstart : marks ("INSERT OR " ++ policy.sql ++ " INTO " ++ table) = 0 := by
    simp only [marks_append, hp, ht]
    decide
  unfold insert
  split
  case isTrue he =>
    have hnil : values.values = [] := by
      rcases values with ⟨_ | _⟩
      · rfl
      · cases he
    have htext : marks ("INSERT OR " ++ policy.sql ++ " INTO " ++ table ++ " DEFAULT VALUES") = 0 := by
      rw [marks_append, hstart]
      decide
    have hc := (Sql.Carries.lit htext).append hrow
    rw [hnil, List.map_nil, join_nil, append_empty] at hc
    rw [hnil]
    exact hc
  case isFalse =>
    have htext : marks ("INSERT OR " ++ policy.sql ++ " INTO " ++ table ++ " (" ++
        String.intercalate ", " values.columns ++ ") VALUES ") = 0 := by
      rw [marks_append, marks_append, marks_append, hstart, marks_intercalate (by decide) hv]
      decide
    exact (Sql.Carries.lit htext).append hrow.parens

theorem carries_update {table : String} {values : Values} (ht : marks table = 0)
    (hv : ∀ c ∈ values.columns, marks c = 0) (hs : s.Carries ps) :
    (update table values s).Carries (assignments values.entries :: ps) := by
  have hset : (Sql.join ", " (values.entries.map assignment)).Carries
      [assignments values.entries] := by
    refine Piece.carries (fun entry he => ?_) rfl
    exact hv entry.1 (List.mem_map_of_mem he)
  have hstart : marks ("UPDATE " ++ table ++ " SET ") = 0 := by
    simp only [marks_append, ht]
    decide
  exact ((Sql.Carries.lit hstart).append hset).append hs.whereClause

theorem carries_delete {table : String} (ht : marks table = 0) (hs : s.Carries ps) :
    (delete table s).Carries ps := by
  have hstart : marks ("DELETE FROM " ++ table) = 0 := by
    rw [marks_append, ht]
    decide
  exact (Sql.Carries.lit hstart).append hs.whereClause

theorem carries_count {table : String} (ht : marks table = 0) (hs : s.Carries ps) :
    (count table s).Carries ps := by
  have hstart : marks ("SELECT COUNT(*) FROM " ++ table) = 0 := by
    rw [marks_append, ht]
    decide
  exact (Sql.Carries.lit hstart).append hs.whereClause

/-- **Every value is bound to the placeholder written for it.** Each of the
five statements carries its parts: the values to write, the conditions of
joins in their order, the condition on rows and the one on groups. -/
theorem statements_carry_their_parts {joins : List Join} {filter having : Option Clause}
    {r : SelectRequest} {values : Values} (policy : ConflictPolicy)
    (hr : r.IsUnmarked) (hv : ∀ c ∈ values.columns, marks c = 0)
    (ht : ∀ j ∈ joins, marks j.table = 0) (hm : ∀ j ∈ joins, ∀ c ∈ j.on, c.IsMarked)
    (hf : ∀ c ∈ filter, c.IsMarked) (hg : ∀ c ∈ having, c.IsMarked)
    (hjoins : Join.compileAll joins = .ok r.joins)
    (hselection : Clause.compileOption filter = .ok r.selection)
    (hhaving : Clause.compileOption having = .ok r.having) :
    (select r).Carries (Join.parts joins ++ filter.toList.map condition ++
      having.toList.map condition) ∧
    (insert r.table values policy).Carries [row values.values] ∧
    (update r.table values r.selection).Carries
      (assignments values.entries :: filter.toList.map condition) ∧
    (delete r.table r.selection).Carries (filter.toList.map condition) ∧
    (count r.table r.selection).Carries (filter.toList.map condition) := by
  have hwhere := Sql.Carries.compileOption hf hselection
  exact ⟨carries_select hr ht hm hf hg hjoins hselection hhaving,
    carries_insert policy hr.table hv, carries_update hr.table hv hwhere,
    carries_delete hr.table hwhere, carries_count hr.table hwhere⟩

/-- Orders with their customers, each with raw conditions and nested ones. -/
def ordersJoins : List Join :=
  [⟨.inner, "customers", some (.raw "customers.id = orders.customer AND customers.region = ?" [.integer 3])⟩,
    ⟨.cross, "regions", none⟩]

def ordersFilter : Clause :=
  .group .or [.between "total" (.integer 10) (.integer 20) true,
    .group .and [.raw "paid OR due < ?" [.integer 5], .not (.isIn "state" [.text "new", .text "open"])],
    .compare "deleted" .equal .null]

def ordersHaving : Clause := .compare "COUNT(*)" .greater (.integer 1)

def ordersRequest : SelectRequest where
  table := "orders"
  columns := ["customer", "total"]
  joins := [⟨.inner, "customers", ⟨"customers.id = orders.customer AND customers.region = ?", [.integer 3]⟩⟩,
    ⟨.cross, "regions", Sql.empty⟩]
  selection := ⟨"NOT (total BETWEEN ? AND ?) OR ((paid OR due < ?) AND NOT (state IN (?, ?))) OR " ++
    "deleted IS NULL", [.integer 10, .integer 20, .integer 5, .text "new", .text "open"]⟩
  groupBy := ["customer"]
  having := ⟨"COUNT(*) > ?", [.integer 1]⟩
  limit := some ⟨5, 0⟩

theorem statements_carry_their_parts_orders :
    (select ordersRequest).args = [.integer 3, .integer 10, .integer 20, .integer 5, .text "new",
      .text "open", .integer 1] ∧
    (select ordersRequest).Carries (Join.parts ordersJoins ++ [condition ordersFilter] ++
      [condition ordersHaving]) ∧
    (update "orders" ⟨[("total", .integer 0)]⟩ ordersRequest.selection).Carries
      [assignments [("total", .integer 0)], condition ordersFilter] := by
  have hnames : ordersRequest.IsUnmarked := ⟨by decide, by decide, by decide, by decide⟩
  have hvalues : ∀ c ∈ (Values.mk [("total", .integer 0)]).columns, marks c = 0 := by decide
  have htables : ∀ j ∈ ordersJoins, marks j.table = 0 := by decide
  have hon : ∀ j ∈ ordersJoins, ∀ c ∈ j.on, c.IsMarked := by
    have hraw : marks "customers.id = orders.customer AND customers.region = ?" = 1 := by decide
    rintro j hj c hc
    rcases List.mem_cons.1 hj with rfl | hj
    · obtain rfl := Option.some.inj hc
      exact hraw
    · obtain rfl := List.mem_singleton.1 hj
      nomatch hc
  have hfilter : ∀ c ∈ some ordersFilter, c.IsMarked := by
    have hraw : marks "paid OR due < ?" = 1 := by decide
    have hplain : marks "total" = 0 ∧ marks "state" = 0 ∧ marks "deleted" = 0 := by decide
    intro c hc
    obtain rfl := Option.some.inj hc
    exact ⟨hplain.1, ⟨hraw, hplain.2.1, trivial⟩, hplain.2.2, trivial⟩
  have hhaving : ∀ c ∈ some ordersHaving, c.IsMarked := by
    have hplain : marks "COUNT(*)" = 0 := by decide
    intro c hc
    obtain rfl := Option.some.inj hc
    exact hplain
  have hc := statements_carry_their_parts .abort hnames hvalues htables hon hfilter hhaving
    (by decide +kernel) (by decide +kernel) (by decide +kernel)
  exact ⟨by decide +kernel, hc.1, hc.2.2.1⟩

end Statement

end TypedTables

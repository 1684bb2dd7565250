import Mathlib.Tactic.Common
import TypedTables.Clause.Compile
import TypedTables.Proofs.Except
/-!
# TypedTables — what compiled clauses look like

Fragments under `++` are a monoid, and every other way to put them together
comes down to it: a joined list is its members with the separator between
each two, so text and arguments stay side by side. For each kind of clause this
is the fragment that it compiles to, if it compiles to one. Everything else about
compiled clauses is read off these shapes.
-/

namespace TypedTables

/-! ## Fragments put together -/

namespace Sql

@[ext]
theorem ext {a b : Sql} (ht : a.text = b.text) (ha : a.args = b.args) : a = b := by
  cases a
  cases b
  simp_all

@[simp] theorem text_lit (s : String) : (lit s).text = s := rfl

@[simp] theorem args_lit (s : String) : (lit s).args = [] := rfl

@[simp] theorem text_bind (v : Value) : (bind v).text = "?" := rfl

@[simp] theorem args_bind (v : Value) : (bind v).args = [v] := rfl

@[simp] theorem text_parens (a : Sql) : a.parens.text = "(" ++ a.text ++ ")" := rfl

@[simp] theorem args_parens (a : Sql) : a.parens.args = a.args := by
  simp [parens]

@[simp] theorem empty_append (a : Sql) : empty ++ a = a := by
  ext1 <;> simp [empty]

@[simp] theorem append_empty (a : Sql) : a ++ empty = a := by
  ext1 <;> simp [empty]

theorem append_assoc (a b c : Sql) : a ++ b ++ c = a ++ (b ++ c) := by
  ext1 <;> simp [String.append_assoc]

@[simp] theorem join_nil (separator : String) : join separator [] = empty := rfl

@[simp] theorem join_singleton (separator : String) (a : Sql) : join separator [a] = a := by
  ext1 <;> simp [join]

theorem join_cons_cons (separator : String) (a b : Sql) (rest : List Sql) :
    join separator (a :: b :: rest) = a ++ lit separator ++ join separator (b :: rest) := by
  ext1 <;> simp [join, String.intercalate_cons_cons]

theorem concat_cons (a : Sql) (rest : List Sql) : concat (a :: rest) = a ++ concat rest := by
  rcases rest with _ | ⟨b, rest⟩
  · rw [concat, concat, join_singleton, join_nil, append_empty]
  · rw [concat, join_cons_cons, concat, append_assoc]
    exact congrArg (a ++ ·) (empty_append _)

/-- The first two fragments of a joined list may be put together first. -/
theorem join_first_two (separator : String) (a b : Sql) (rest : List Sql) :
    join separator (a :: b :: rest) = join separator ((a ++ lit separator ++ b) :: rest) := by
  rcases rest with _ | ⟨c, rest⟩
  · rw [join_cons_cons, join_singleton, join_singleton]
  · rw [join_cons_cons, join_cons_cons, join_cons_cons]
    simp only [append_assoc]

end Sql

/-! ## Clauses -/

namespace Clause

open Sql

variable {s : Sql} {column : String}

theorem compileCompare_ok {op : Operator} {value : Value}
    (h : compileCompare column op value = .ok s) :
    (value = .null ∧ op = .equal ∧ s = lit (column ++ " IS NULL")) ∨
    (value = .null ∧ op = .notEqual ∧ s = lit (column ++ " IS NOT NULL")) ∨
    (value ≠ .null ∧ s = lit (column ++ " " ++ op.sql ++ " ") ++ bind value) := by
  obtain ⟨_, -, hs⟩ := bind_eq_ok.1 h
  split at hs
  case isTrue hv =>
    have hv : value = .null := by
      cases value <;> first | rfl | exact absurd hv (by simp [Value.isNull])
    subst hv
    split at hs
    · exact .inl ⟨rfl, rfl, (pure_eq_ok.1 hs).symm⟩
    · exact .inr (.inl ⟨rfl, rfl, (pure_eq_ok.1 hs).symm⟩)
    · exact absurd hs throw_ne_ok
  case isFalse hv =>
    obtain ⟨_, -, hs⟩ := map_eq_ok.1 hs
    refine .inr (.inr ⟨?_, hs.symm⟩)
    rintro rfl
    exact hv rfl

theorem compileIn_ok {values : List Value} (h : compileIn column values = .ok s) :
    ∃ v vs, values = v :: vs ∧ s = lit (column ++ " IN ") ++ (join ", " (values.map bind)).parens := by
  obtain ⟨_, -, h⟩ := bind_eq_ok.1 h
  rcases values with _ | ⟨v, vs⟩
  · exact absurd h throw_ne_ok
  · obtain ⟨_, -, h⟩ := bind_eq_ok.1 h
    exact ⟨v, vs, rfl, (pure_eq_ok.1 h).symm⟩

theorem compileBetween_ok {low high : Value} {negated : Bool}
    (h : compileBetween column low high negated = .ok s) :
    let range := lit (column ++ " BETWEEN ") ++ bind low ++ lit " AND " ++ bind high
    s = if negated then lit "NOT " ++ range.parens else range := by
  obtain ⟨_, -, h⟩ := bind_eq_ok.1 h
  cases hn : low.isNull || high.isNull
  · simp only [hn] at h
    obtain ⟨_, -, h⟩ := bind_eq_ok.1 h
    obtain ⟨_, -, h⟩ := bind_eq_ok.1 h
    exact (pure_eq_ok.1 h).symm
  · simp only [hn] at h
    obtain ⟨_, h, _⟩ := bind_eq_ok.1 h
    exact absurd h throw_ne_ok

theorem compileColumns_ok {left right : String} (h : compileColumns left right = .ok s) :
    s = lit (left ++ " = " ++ right) := by
  obtain ⟨_, -, h⟩ := bind_eq_ok.1 h
  obtain ⟨_, -, h⟩ := bind_eq_ok.1 h
  exact (pure_eq_ok.1 h).symm

theorem compile_not_ok {c : Clause} (h : compile (.not c) = .ok s) :
    ∃ a, compile c = .ok a ∧ s = lit "NOT " ++ a.parens := by
  obtain ⟨a, ha, h⟩ := map_eq_ok.1 h
  exact ⟨a, ha, h.symm⟩

theorem compileMembers_cons_ok {c : Clause} {cs : List Clause} {parts : List Sql}
    (h : compileMembers (c :: cs) = .ok parts) :
    ∃ a rest, compile c = .ok a ∧ compileMembers cs = .ok rest ∧
      parts = (if c.isCompound then a.parens else a) :: rest := by
  obtain ⟨a, ha, h⟩ := bind_eq_ok.1 h
  obtain ⟨rest, hrest, h⟩ := map_eq_ok.1 h
  exact ⟨a, rest, ha, hrest, h.symm⟩

/-- A group of several members is their fragments with the connective between
each two. -/
theorem compile_group_ok {k : Connective} {c d : Clause} {rest : List Clause}
    (h : compile (.group k (c :: d :: rest)) = .ok s) :
    ∃ parts, compileMembers (c :: d :: rest) = .ok parts ∧ s = join (" " ++ k.sql ++ " ") parts := by
  rw [compile] at h
  obtain ⟨parts, hp, h⟩ := map_eq_ok.1 h
  exact ⟨parts, hp, h.symm⟩

end Clause

end TypedTables

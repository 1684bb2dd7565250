import Mathlib.Logic.Relation
import Mathlib.Tactic.Common
import TypedTables.Clause.Compile
/-!
# TypedTables — groups that leave no choice

A group of one member says what its member says, so it can be put around any
part of a clause, or taken away, and nothing of the SQL changes: neither the
fragment of the part, nor whether the part needs parentheses in the group that
it is in, nor the fault where there is one.
-/

namespace TypedTables

namespace Clause

variable {c d : Clause}

/-! ## Parts of a clause -/

/-- **A clause with one place left open.** -/
inductive Context
  | hole
  | not (inner : Context)
  | member (connective : Connective) (before : List Clause) (inner : Context) (after : List Clause)

/-- The clause that has another one in its open place. -/
def Context.fill : Context → Clause → Clause
  | hole, c => c
  | not inner, c => .not (inner.fill c)
  | member connective before inner after, c => .group connective (before ++ inner.fill c :: after)

/-- **A group is put around a part of a clause**, wherever the part is. -/
inductive Groups : Clause → Clause → Prop
  | around (context : Context) (part : Clause) (connective : Connective) :
      Groups (context.fill part) (context.fill (.group connective [part]))

/-! ## The same SQL -/

/-- **One clause can stand for another**: it compiles to the same, and needs
parentheses where the other does. -/
structure SameSql (c d : Clause) : Prop where
  compile : c.compile = d.compile
  isCompound : c.isCompound = d.isCompound

theorem equivalence_sameSql : Equivalence SameSql where
  refl _ := ⟨rfl, rfl⟩
  symm h := ⟨h.compile.symm, h.isCompound.symm⟩
  trans h₁ h₂ := ⟨h₁.compile.trans h₂.compile, h₁.isCompound.trans h₂.isCompound⟩

/-- **A group of one member is that member.** -/
theorem sameSql_group (connective : Connective) (c : Clause) : SameSql c (.group connective [c]) where
  compile := by rw [Clause.compile]
  isCompound := rfl

theorem SameSql.not (h : SameSql c d) : SameSql (.not c) (.not d) where
  compile := by rw [Clause.compile, Clause.compile, h.compile]
  isCompound := rfl

/-- A group of several members is compounded of them. -/
theorem group_of_two (connective : Connective) {cs : List Clause} (h : 1 < cs.length) :
    (group connective cs).compile = Sql.join (" " ++ connective.sql ++ " ") <$> compileMembers cs ∧
      (group connective cs).isCompound = true := by
  rcases cs with _ | ⟨first, _ | ⟨second, rest⟩⟩
  · cases h
  · exact absurd h (Nat.lt_irrefl 1)
  · refine ⟨?_, ?_⟩
    · rw [Clause.compile]
      rfl
    · exact decide_eq_true h

/-- Members compile to the same when one of them does. -/
theorem SameSql.compileMembers (h : SameSql c d) (before after : List Clause) :
    compileMembers (before ++ c :: after) = compileMembers (before ++ d :: after) := by
  induction before with
  | nil =>
    rw [List.nil_append, List.nil_append, Clause.compileMembers, Clause.compileMembers, h.compile, h.isCompound]
  | cons b before ih => rw [List.cons_append, List.cons_append, Clause.compileMembers, Clause.compileMembers, ih]

theorem SameSql.member (h : SameSql c d) (connective : Connective) (before after : List Clause) :
    SameSql (.group connective (before ++ c :: after)) (.group connective (before ++ d :: after)) := by
  by_cases halone : before = [] ∧ after = []
  · -- the group is a group of one, and as good as its member
    obtain ⟨rfl, rfl⟩ := halone
    have hc := equivalence_sameSql.symm (sameSql_group connective c)
    exact equivalence_sameSql.trans (equivalence_sameSql.trans hc h) (sameSql_group connective d)
  · have htwo : ∀ x : Clause, 1 < (before ++ x :: after).length := by
      intro x
      rw [List.length_append, List.length_cons]
      by_contra hshort
      exact halone ⟨List.eq_nil_of_length_eq_zero (by omega), List.eq_nil_of_length_eq_zero (by omega)⟩
    obtain ⟨hcompile, hcompound⟩ := group_of_two connective (htwo c)
    obtain ⟨hcompile', hcompound'⟩ := group_of_two connective (htwo d)
    exact ⟨by rw [hcompile, hcompile', h.compileMembers], by rw [hcompound, hcompound']⟩

/-- **A part can be replaced in any place**, by induction on what is around it. -/
theorem SameSql.fill (h : SameSql c d) (context : Context) : SameSql (context.fill c) (context.fill d) := by
  induction context with
  | hole => exact h
  | not inner ih => exact ih.not
  | member connective before inner after ih => exact ih.member connective before after

theorem Groups.sameSql (h : Groups c d) : SameSql c d := by
  obtain ⟨context, part, connective⟩ := h
  exact (sameSql_group connective part).fill context

/-- **Grouping that leaves no choice does not matter.** Groups of one member can
be put around parts of a clause, and taken away from them, any number of times,
and the clause compiles to the same fragment, or fails with the same fault.
Several conditions that all have to hold compile as their conjunction, and none
to the empty fragment. -/
theorem grouping_keeps_sql :
    (∀ c d, Relation.EqvGen Groups c d → c.compile = d.compile) ∧
    (∀ c cs, compileAll (c :: cs) = (Clause.and (c :: cs)).compile) ∧
    compileAll [] = .ok Sql.empty := by
  refine ⟨fun c d h => ?_, fun c cs => ?_, rfl⟩
  · have hsame : Relation.EqvGen SameSql c d := h.mono fun _ _ => Groups.sameSql
    exact (equivalence_sameSql.eqvGen_iff.1 hsame).compile
  · rcases cs with _ | ⟨second, rest⟩
    · exact (sameSql_group .and c).compile
    · have htwo : 1 < (c :: second :: rest).length := Nat.succ_lt_succ (Nat.succ_pos rest.length)
      rw [Clause.and, (group_of_two .and htwo).1]
      rfl

/-- People who are not of some age or starred, with groups put around them in
three places. -/
theorem grouping_keeps_sql_people :
    let age := Clause.eq "age" (.integer 7)
    let starred := Clause.raw "starred OR pinned" []
    (Clause.not (.or [age, starred])).compile = .ok ⟨"NOT (age = ? OR (starred OR pinned))", [.integer 7]⟩ ∧
    (Clause.and [.not (.or [.or [age], .and [starred]])]).compile =
      (Clause.not (.or [age, starred])).compile := by
  intro age starred
  have hage : Groups (.not (.or [age, starred])) (.not (.or [.or [age], starred])) :=
    .around (.not (.member .or [] .hole [starred])) age .or
  have hstarred : Groups (.not (.or [.or [age], starred])) (.not (.or [.or [age], .and [starred]])) :=
    .around (.not (.member .or [.or [age]] .hole [])) starred .and
  have hall : Groups (.not (.or [.or [age], .and [starred]])) (.and [.not (.or [.or [age], .and [starred]])]) :=
    .around .hole _ .and
  have hchain := Relation.EqvGen.trans _ _ _ (.rel _ _ hage) (.trans _ _ _ (.rel _ _ hstarred) (.rel _ _ hall))
  exact ⟨rfl, (grouping_keeps_sql.1 _ _ hchain).symm⟩

end Clause

end TypedTables

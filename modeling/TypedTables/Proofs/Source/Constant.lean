import Mathlib.Data.List.Perm.Subperm
import TypedTables.Proofs.Source.Naming
/-!
# TypedTables — constants of columns

The constant of a column is the name of its field in capital letters. Where that
is taken a suffix is put behind it, again and again: by a constant that every
module has, or by one of a field before it. A suffix makes a name longer, so
names with different numbers of them differ, and taken names run out.
-/

namespace TypedTables

namespace Naming

variable {taken taken' fields : List String} {name : String} {n : Nat}

/-! ## Suffixes -/

/-- A name with a number of suffixes. -/
def suffixed (name : String) (n : Nat) : String := name ++ String.join (List.replicate n "_COLUMN")

@[simp] theorem suffixed_zero (name : String) : suffixed name 0 = name := String.append_empty

/-- The first suffix stands right behind the name. -/
theorem suffixed_succ (name : String) (n : Nat) : suffixed name (n + 1) = suffixed (name ++ "_COLUMN") n := by
  simp [suffixed, List.replicate_succ, String.append_assoc]

theorem length_suffixed (name : String) (n : Nat) : (suffixed name n).length = name.length + 7 * n := by
  induction n generalizing name with
  | zero => rw [suffixed_zero, Nat.mul_zero, Nat.add_zero]
  | succ n ih =>
    have hsuffix : "_COLUMN".length = 7 := by decide +kernel
    rw [suffixed_succ, ih, String.length_append, hsuffix]
    omega

/-- Different numbers of suffixes make different names. -/
theorem suffixed_injective (name : String) : Function.Injective (suffixed name) := by
  intro a b h
  have hlength := congrArg String.length h
  rw [length_suffixed, length_suffixed] at hlength
  omega

/-! ## New names -/

/-- **As few suffixes as make a name a new one**: with them it is new, and with
any smaller number of them it is taken. -/
structure IsLeastNew (taken : List String) (name : String) (n : Nat) : Prop where
  notMem : suffixed name n ∉ taken
  mem_of_lt : ∀ k < n, suffixed name k ∈ taken

/-- The order in which names were taken does not matter. -/
theorem IsLeastNew.congr (h : IsLeastNew taken name n) (hsame : ∀ s, s ∈ taken' ↔ s ∈ taken) :
    IsLeastNew taken' name n where
  notMem := fun hmem => h.notMem ((hsame _).1 hmem)
  mem_of_lt := fun k hk => (hsame _).2 (h.mem_of_lt k hk)

/-- **There are no more suffixes than taken names**, each of which keeps one number
of them from being enough. -/
theorem IsLeastNew.le_length (h : IsLeastNew taken name n) : n ≤ taken.length := by
  have hnodup : ((List.range n).map (suffixed name)).Nodup := List.nodup_range.map (suffixed_injective name)
  have hsub : (List.range n).map (suffixed name) ⊆ taken := by
    intro s hs
    obtain ⟨k, hk, rfl⟩ := List.mem_map.1 hs
    exact h.mem_of_lt k (List.mem_range.1 hk)
  simpa using (hnodup.subperm hsub).length_le

/-- A fresh constant has a suffix for each time that it was found to be taken, by
induction on how often it may be. -/
theorem exists_freshConstant_eq (taken : List String) (fuel : Nat) (name : String) :
    ∃ n, freshConstant taken fuel name = suffixed name n ∧ ∀ k < n, suffixed name k ∈ taken := by
  induction fuel generalizing name with
  | zero => exact ⟨0, (suffixed_zero name).symm, fun k hk => absurd hk (Nat.not_lt_zero k)⟩
  | succ fuel ih =>
    unfold freshConstant
    split
    case isFalse => exact ⟨0, (suffixed_zero name).symm, fun k hk => absurd hk (Nat.not_lt_zero k)⟩
    case isTrue hold =>
      obtain ⟨n, heq, htaken⟩ := ih (name ++ "_COLUMN")
      refine ⟨n + 1, by rw [heq, suffixed_succ], fun k hk => ?_⟩
      rcases k with _ | k
      · rw [suffixed_zero]
        simpa using hold
      · rw [suffixed_succ]
        exact htaken k (Nat.lt_of_succ_lt_succ hk)

/-- **A fresh constant has as few suffixes as make it a new one.** -/
theorem exists_isLeastNew (taken : List String) (name : String) :
    ∃ n, freshConstant taken (taken.length + 1) name = suffixed name n ∧ IsLeastNew taken name n := by
  obtain ⟨n, heq, htaken⟩ := exists_freshConstant_eq taken (taken.length + 1) name
  exact ⟨n, heq, heq ▸ freshConstant_notMem taken name, htaken⟩

/-! ## One constant for each field -/

@[simp] theorem length_constantsFor (taken fields : List String) :
    (constantsFor taken fields).length = fields.length := by
  induction fields generalizing taken with
  | nil => rfl
  | cons field fields ih => rw [constantsFor, List.length_cons, List.length_cons, ih]

/-- **The constants of fields differ**, by induction on the fields: what is taken
for one is taken for all after it. -/
theorem nodup_constantsFor (taken fields : List String) : (constantsFor taken fields).Nodup := by
  induction fields generalizing taken with
  | nil => exact List.nodup_nil
  | cons field fields ih =>
    refine List.nodup_cons.2 ⟨fun hmem => ?_, ih _⟩
    exact notMem_of_mem_constantsFor _ hmem List.mem_cons_self

/-- **The constant of a field avoids what was taken** at first, and the constants
of the fields before it, by induction on these. -/
theorem exists_constantsFor_eq (taken fields : List String) (i : Fin fields.length) :
    ∃ n, (constantsFor taken fields)[i]? = some (suffixed (constantOf fields[i]) n) ∧
      IsLeastNew (taken ++ (constantsFor taken fields).take i) (constantOf fields[i]) n := by
  induction fields generalizing taken with
  | nil => exact i.elim0
  | cons field fields ih =>
    obtain ⟨i, hi⟩ := i
    rcases i with _ | i
    · obtain ⟨n, heq, hleast⟩ := exists_isLeastNew taken (constantOf field)
      refine ⟨n, congrArg some heq, ?_⟩
      simpa using hleast
    · obtain ⟨n, heq, hleast⟩ :=
        ih (freshConstant taken (taken.length + 1) (constantOf field) :: taken) ⟨i, Nat.lt_of_succ_lt_succ hi⟩
      refine ⟨n, heq, hleast.congr fun s => ?_⟩
      simp [constantsFor, or_left_comm]

end Naming

open Naming

/-- **The constants of columns are new ones.** There is one for each field, in the
order of the fields, no two of them are the same, and none is one that every module
has. Each is the name of its field in capital letters with as few suffixes as keep
it from being one of those or the constant of a field before it. -/
theorem constants_are_new (fields : List Field) :
    (columnConstants fields).length = fields.length ∧ (columnConstants fields).Nodup ∧
      (∀ c ∈ columnConstants fields, c ∉ reservedConstants) ∧
      ∀ i : Fin fields.length, ∃ n ≤ reservedConstants.length + i,
        (columnConstants fields)[i]? = some (suffixed (constantOf fields[i].name) n) ∧
        IsLeastNew (reservedConstants ++ (columnConstants fields).take i) (constantOf fields[i].name) n := by
  refine ⟨?_, nodup_constantsFor _ _, fun c hc => notMem_of_mem_constantsFor _ hc, fun i => ?_⟩
  · rw [columnConstants, length_constantsFor, List.length_map]
  · have hi : (i : Nat) < (fields.map (·.name)).length := Nat.lt_of_lt_of_eq i.isLt (List.length_map _).symm
    obtain ⟨n, heq, hleast⟩ := exists_constantsFor_eq reservedConstants (fields.map (·.name)) ⟨i, hi⟩
    have hname : (fields.map (·.name))[(⟨i, hi⟩ : Fin _)] = fields[i].name := List.getElem_map _
    rw [hname] at heq hleast
    refine ⟨n, Nat.le_trans hleast.le_length ?_, heq, hleast⟩
    rw [List.length_append, List.length_take]
    exact Nat.add_le_add_left (Nat.min_le_left _ _) _

/-- Fields with names that are taken in capital letters: the first by a constant
that every module has, and all but one of the others by a field before it. That one
is written in two words in capital letters, as is the one behind it. -/
def clashingFields : List Field :=
  ["columns", "Columns", "columns_column", "displayName", "display_name"].map fun name =>
    { name, columnName := name, semanticType := .text, declaredType := "String" }

/-- Each of the first three has one suffix more than the field before it, but for
the third, which has one in its name. -/
theorem constants_are_new_clashing :
    columnConstants clashingFields = ["COLUMNS_COLUMN", "COLUMNS_COLUMN_COLUMN", "COLUMNS_COLUMN_COLUMN_COLUMN",
      "DISPLAY_NAME", "DISPLAY_NAME_COLUMN"] ∧
      (columnConstants clashingFields).Nodup ∧ "COLUMNS_COLUMN" ∉ reservedConstants ∧
      (∃ n ≤ reservedConstants.length + 2, suffixed (constantOf "columns_column") n = "COLUMNS_COLUMN_COLUMN_COLUMN" ∧
        IsLeastNew (reservedConstants ++ ["COLUMNS_COLUMN", "COLUMNS_COLUMN_COLUMN"])
          (constantOf "columns_column") n) ∧
      ∃ n ≤ reservedConstants.length + 3, suffixed (constantOf "displayName") n = "DISPLAY_NAME" ∧
        IsLeastNew (reservedConstants ++ ["COLUMNS_COLUMN", "COLUMNS_COLUMN_COLUMN", "COLUMNS_COLUMN_COLUMN_COLUMN"])
          (constantOf "displayName") n := by
  have hnatural : ["columns", "Columns", "columns_column", "displayName", "display_name"].map constantOf =
      ["COLUMNS", "COLUMNS", "COLUMNS_COLUMN", "DISPLAY_NAME", "DISPLAY_NAME"] := by
    decide +kernel
  simp only [List.map_cons, List.map_nil, List.cons.injEq] at hnatural
  obtain ⟨hfirst, hsecond, hthird, hfourth, hfifth, -⟩ := hnatural
  have hall : columnConstants clashingFields = ["COLUMNS_COLUMN", "COLUMNS_COLUMN_COLUMN",
      "COLUMNS_COLUMN_COLUMN_COLUMN", "DISPLAY_NAME", "DISPLAY_NAME_COLUMN"] := by
    simp [columnConstants, clashingFields, constantsFor, hfirst, hsecond, hthird, hfourth, hfifth, reservedConstants,
      freshConstant]
  obtain ⟨-, hnodup, hnew, hleast⟩ := constants_are_new clashingFields
  obtain ⟨n, hn, heq, hthirdLeast⟩ := hleast ⟨2, by decide⟩
  obtain ⟨k, hk, hkeq, hfourthLeast⟩ := hleast ⟨3, by decide⟩
  rw [hall] at heq hthirdLeast hkeq hfourthLeast
  refine ⟨hall, hnodup, hnew _ (by rw [hall]; exact List.mem_cons_self), ?_, ?_⟩
  · exact ⟨n, hn, (Option.some.inj heq).symm, hthirdLeast⟩
  · exact ⟨k, hk, (Option.some.inj hkeq).symm, hfourthLeast⟩

end TypedTables

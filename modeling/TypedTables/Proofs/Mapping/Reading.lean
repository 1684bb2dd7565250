import TypedTables.Proofs.Mapping.RoundTrip
import TypedTables.Sample
/-!
# TypedTables — rows that are read by name

A struct is read from any row that shows under the struct's columns what the
struct stores, wherever these columns stand, whatever stands between them, and
whatever comes later under the same names. Where some of the columns are taken
out of the row, the first of them that the struct declares is the one that is
missed.
-/

namespace TypedTables

/-! ## Cells by name -/

namespace Row

variable {row : Row} {column : String} {value : Value} {gone : List String}

/-- **The first cell under a name**, by its position. -/
def Shows (row : Row) (column : String) (value : Value) : Prop :=
  ∃ i : Nat, row.columns[i]? = some column ∧ row.values[i]? = some value ∧ ∀ j < i, row.columns[j]? ≠ some column

/-- What is looked up is what stands at the first position of the name, by
induction on the columns. -/
theorem lookup_zip_eq_some_iff {columns : List String} {values : List Value} :
    (columns.zip values).lookup column = some value ↔
      ∃ i : Nat, columns[i]? = some column ∧ values[i]? = some value ∧ ∀ j < i, columns[j]? ≠ some column := by
  induction columns generalizing values with
  | nil => simp
  | cons c columns ih =>
    cases values with
    | nil => simp
    | cons v values =>
      rw [List.zip_cons_cons, List.lookup_cons]
      by_cases hc : column = c
      · -- it stands at the first position
        subst hc
        rw [beq_self_eq_true]
        constructor
        · intro hv
          exact ⟨0, rfl, hv, nofun⟩
        · rintro ⟨i, -, hv, hfirst⟩
          cases i with
          | zero => exact hv
          | succ i => exact absurd rfl (hfirst 0 i.succ_pos)
      · -- it stands further behind, one position after its position in the rest
        rw [beq_false_of_ne hc, ih]
        constructor
        · rintro ⟨i, hi, hv, hfirst⟩
          refine ⟨i + 1, hi, hv, fun j hj => ?_⟩
          cases j with
          | zero => exact fun h => hc (Option.some.inj h).symm
          | succ j => exact hfirst j (Nat.lt_of_succ_lt_succ hj)
        · rintro ⟨i, hi, hv, hfirst⟩
          cases i with
          | zero => exact absurd (Option.some.inj hi).symm hc
          | succ i => exact ⟨i, hi, hv, fun j hj => hfirst (j + 1) (Nat.succ_lt_succ hj)⟩

theorem value?_eq_some_iff : row.value? column = some value ↔ row.Shows column value := lookup_zip_eq_some_iff

/-- The cells of a row but for those under some names. -/
def without (row : Row) (gone : List String) : Row :=
  let kept := (row.columns.zip row.values).filter fun cell => cell.1 ∉ gone
  ⟨kept.map Prod.fst, kept.map Prod.snd⟩

theorem lookup_filter_notMem (es : List (String × Value)) (gone : List String) (column : String) :
    (es.filter fun e => e.1 ∉ gone).lookup column = if column ∈ gone then none else es.lookup column := by
  induction es with
  | nil => exact (ite_self none).symm
  | cons e es ih =>
    obtain ⟨c, v⟩ := e
    rw [List.filter_cons]
    by_cases hc : c ∈ gone
    · rw [if_neg (by simpa using hc), ih]
      split
      case isTrue => rfl
      case isFalse hcolumn =>
        have hne : column ≠ c := fun h => hcolumn (h.symm ▸ hc)
        rw [List.lookup_cons, beq_false_of_ne hne]
    · rw [if_pos (by simpa using hc), List.lookup_cons, List.lookup_cons, ih]
      by_cases he : column = c
      · subst he
        simp only [beq_self_eq_true, if_neg hc]
      · rw [beq_false_of_ne he]

theorem value?_without (row : Row) (gone : List String) (column : String) :
    (row.without gone).value? column = if column ∈ gone then none else row.value? column := by
  have hzip : (row.without gone).columns.zip (row.without gone).values =
      (row.columns.zip row.values).filter fun cell => cell.1 ∉ gone := (List.zip_of_prod rfl rfl).symm
  rw [value?, hzip, lookup_filter_notMem, value?]

end Row

/-! ## Slots that are missed -/

/-- No slot is read without its column. -/
theorem Slot.read_of_error {s : Slot} {row : Row} {e : MappingError} (h : row.value s.column = .error e) :
    s.read row = .error e := by
  unfold read
  split
  · rw [h]
    rfl
  · rw [Row.get, h]
    rfl

/-- **The first slot whose column is gone is the one that is missed**, as those
before it are read as usual. -/
theorem Instance.ofRow_of_missing {row : Row} {gone : List String} {missed : String} :
    ∀ {slots : List Slot} {xs : Instance slots}, (∀ s ∈ slots, s.type.scalar ≠ .any) →
      (slots.map (·.column)).Nodup → hasNaN slots xs = false →
      (∀ c ∈ slots.map (·.column), row.value c =
        if c ∈ gone then .error (.missingColumn c) else .ok (((entries slots xs).lookup c).getD .null)) →
      (slots.map (·.column)).find? (· ∈ gone) = some missed →
      ofRow row slots = .error (.missingColumn missed) := by
  intro slots
  induction slots with
  | nil => exact fun _ _ _ _ h => nomatch h
  | cons s slots ih =>
    rintro ⟨x, xs⟩ hslots hnodup hnan hrow hfirst
    rw [List.map_cons, List.nodup_cons] at hnodup
    rw [List.forall_mem_cons] at hslots
    rw [hasNaN, Bool.or_eq_false_iff] at hnan
    rw [List.map_cons, List.forall_mem_cons, lookup_entries_cons hnodup.1, if_pos rfl] at hrow
    rw [List.map_cons, List.find?_cons] at hfirst
    by_cases hgone : s.column ∈ gone
    · -- it is this slot that is missed first
      rw [decide_eq_true hgone] at hfirst
      obtain rfl := Option.some.inj hfirst
      rw [if_pos hgone] at hrow
      rw [ofRow, Slot.read_of_error hrow.1]
      rfl
    · rw [decide_eq_false hgone] at hfirst
      rw [if_neg hgone] at hrow
      -- the slots behind it look for other columns, so their part of the row is the same
      have hrest := ih hslots.2 hnodup.2 hnan.2 (fun c hc => by
        have hne : c ≠ s.column := fun h => hnodup.1 (h ▸ hc)
        rw [hrow.2 c hc, lookup_entries_cons hnodup.1, if_neg hne]) hfirst
      rw [ofRow, Slot.read_of_write hslots.1 hnan.1 hrow.1, hrest]
      rfl

/-! ## Structs by name -/

/-- **A row that stores a struct**: its first cell under each column of the
struct is the one of the struct's payload. -/
def Row.Stores {α : Type} (row : Row) (m : Mapping α) (x : α) : Prop :=
  ∀ c ∈ m.columns, ∃ v, ((m.toValues x).toRow m.columns).Shows c v ∧ row.Shows c v

theorem Row.stores_iff {α : Type} {row : Row} {m : Mapping α} {x : α} :
    row.Stores m x ↔ ∀ c ∈ m.columns, row.value? c = some (((m.toValues x).get? c).getD .null) := by
  refine forall₂_congr fun c hc => ?_
  have hstored : ((m.toValues x).toRow m.columns).value? c = some (((m.toValues x).get? c).getD .null) :=
    value?_toRow _ hc
  simp only [← value?_eq_some_iff, hstored, Option.some.injEq, exists_eq_left']

namespace Mapping

variable {α : Type}

/-- **A struct is read by name**: what is read of a row that stores it does not
depend on where the columns stand, and where some of the columns are gone, the
first of them in the order of the struct is missed. -/
structure ReadsByName (m : Mapping α) (x back : α) : Prop where
  ofRow_eq_ok : ∀ row : Row, row.Stores m x → m.ofRow row = .ok back
  ofRow_without : ∀ row : Row, row.Stores m x → ∀ gone : List String, gone ≠ [] → gone ⊆ m.columns →
    ∃ c, m.columns.find? (· ∈ gone) = some c ∧ m.ofRow (row.without gone) = .error (.missingColumn c)

/-- **Structs with slots are read by name**, as what they are up to the hooks. -/
theorem readsByName_ofSlots {m : Model} {slots : List Slot} (hscalars : ∀ s ∈ slots, s.type.scalar ≠ .any)
    (hcolumns : slots.map (·.column) = m.columns) (hnodup : m.columns.Nodup) (options : DdlOptions)
    (view : α → Instance slots) (replace : Instance slots → α → α) (initial : α) (hooks : α → α) {x : α}
    (hnan : Instance.hasNaN slots (view x) = false) (hzero : Instance.hasZeroKey slots (view x) = false) :
    (ofSlots m options slots view replace initial hooks).ReadsByName x (hooks (replace (view x) initial)) := by
  have hdistinct : (slots.map (·.column)).Nodup := hcolumns ▸ hnodup
  -- no column is put twice, so the payload has all entries as they are
  have hvalues : Instance.toValues slots (view x) = ⟨Instance.entries slots (view x)⟩ :=
    Values.ofList_of_nodup ((Instance.entries_sublist slots (view x)).nodup hdistinct)
  have hcell : ∀ row : Row, row.Stores (ofSlots m options slots view replace initial hooks) x →
      ∀ c ∈ slots.map (·.column), row.value? c = some (((Instance.entries slots (view x)).lookup c).getD .null) := by
    intro row hrow c hc
    have hmem : c ∈ m.columns := hcolumns ▸ hc
    have hstored : row.value? c = some (((Instance.toValues slots (view x)).get? c).getD .null) :=
      Row.stores_iff.1 hrow c hmem
    rw [hstored, hvalues]
    rfl
  refine ⟨fun row hrow => ?_, fun row hrow gone hsome hgone => ?_⟩
  · have hread : Instance.ofRow row slots = .ok (Instance.reread slots (view x)) :=
      Instance.ofRow_of_lookup hscalars hdistinct hnan fun c hc => by rw [Row.value, hcell row hrow c hc]
    rw [(Instance.reread_eq_iff hscalars).2 hzero] at hread
    show (do return hooks (replace (← Instance.ofRow row slots) initial)) = _
    rw [hread]
    rfl
  · obtain ⟨missed, hmissed⟩ : ∃ c, m.columns.find? (· ∈ gone) = some c := by
      obtain ⟨c, hc⟩ := List.exists_mem_of_ne_nil gone hsome
      exact Option.isSome_iff_exists.1 (List.find?_isSome.2 ⟨c, hgone hc, decide_eq_true hc⟩)
    refine ⟨missed, hmissed, ?_⟩
    have hfails : Instance.ofRow (row.without gone) slots = .error (.missingColumn missed) := by
      refine Instance.ofRow_of_missing hscalars hdistinct hnan (fun c hc => ?_) (hcolumns ▸ hmissed)
      rw [Row.value, Row.value?_without, hcell row hrow c hc]
      by_cases hmissing : c ∈ gone
      · rw [if_pos hmissing, if_pos hmissing]
      · rw [if_neg hmissing, if_neg hmissing]
    show (do return hooks (replace (← Instance.ofRow (row.without gone) slots) initial)) = _
    rw [hfails]
    rfl

end Mapping

/-! ## The samples -/

/-- Whether a slot may have a real. -/
def Slot.isReal (s : Slot) : Bool := s.type.scalar == .f32 || s.type.scalar == .f64

/-- Only reals may be no numbers. -/
theorem Slot.isNaN_of_not_isReal {s : Slot} (h : s.isReal = false) (x : s.type.Carrier) : s.type.isNaN x = false := by
  have hscalar : ∀ (t : ScalarType) (x : t.Carrier), t ≠ .f32 → t ≠ .f64 → t.isNaN x = false := by
    intro t x h32 h64
    cases t <;> first | rfl | exact absurd rfl h32 | exact absurd rfl h64
  obtain ⟨h32, h64⟩ := Bool.or_eq_false_iff.1 h
  obtain ⟨field, column, type, role, isKey⟩ := s
  cases type with
  | required t => exact hscalar t x (beq_eq_false_iff_ne.1 h32) (beq_eq_false_iff_ne.1 h64)
  | optional t =>
    cases x with
    | none => rfl
    | some x => exact hscalar t x (beq_eq_false_iff_ne.1 h32) (beq_eq_false_iff_ne.1 h64)

theorem Instance.hasNaN_of_not_isReal {slots : List Slot} (h : ∀ s ∈ slots, s.isReal = false) (xs : Instance slots) :
    hasNaN slots xs = false := by
  induction slots with
  | nil => rfl
  | cons s slots ih =>
    obtain ⟨x, xs⟩ := xs
    rw [List.forall_mem_cons] at h
    rw [hasNaN, Slot.isNaN_of_not_isReal h.1, ih h.2]
    rfl

namespace Sample

/-- The rating is the only real of a user. -/
theorem User.hasNaN_view (u : User) : Instance.hasNaN slots (view u) = u.rating.isNaN := by
  have hfront : Instance.hasNaN slots (view u) =
      (u.rating.isNaN || Instance.hasNaN (slots.drop 6) (u.avatar, u.homepage, u.nickname, ())) := rfl
  have hback : Instance.hasNaN (slots.drop 6) (u.avatar, u.homepage, u.nickname, ()) = false :=
    Instance.hasNaN_of_not_isReal (by decide) _
  rw [hfront, hback, Bool.or_false]

/-- **Users, posts and contacts are read by name**, in any order of their
columns. A user whose rating is a number comes back with the name to show. -/
theorem samples_read_by_name :
    (∀ u : User, u.rating.isNaN = false →
      User.mapping.ReadsByName u { u with displayName := "@" ++ u.username }) ∧
    (∀ p : Post, Post.mapping.ReadsByName p p) ∧ ∀ c : Contact, Contact.mapping.ReadsByName c c := by
  refine ⟨fun u hnumber => ?_, fun p => ?_, fun c => ?_⟩
  · have hnan : Instance.hasNaN User.slots (User.view u) = false := by rw [User.hasNaN_view, hnumber]
    exact Mapping.readsByName_ofSlots (by decide) rfl (by decide) options _ _ _ _ hnan rfl
  · have hnan : Instance.hasNaN Post.slots (Post.view p) = false := Instance.hasNaN_of_not_isReal (by decide) _
    exact Mapping.readsByName_ofSlots (by decide) rfl (by decide) options _ _ _ _ hnan rfl
  · have hnan : Instance.hasNaN Contact.slots (Contact.view c) = false := Instance.hasNaN_of_not_isReal (by decide) _
    exact Mapping.readsByName_ofSlots (by decide) rfl (by decide) options _ _ _ _ hnan rfl

/-- A user whose key is still to be numbered, who is rated 4.5 and has no
homepage. -/
def ada : User :=
  { User.initial with
    username := "ada", age := ⟨36, by decide⟩, isRegistered := true, rating := ⟨0x40900000⟩, avatar := some [1, 2]
    nickname := some "countess" }

/-- A row with the columns of users in another order, with one that is not theirs
and with two that come twice. -/
def adaRow : Row where
  columns := ["nick", "rating", "posts", "_id", "username", "age", "timestamp", "is_registered", "homepage",
    "username", "avatar", "age"]
  values := [.text "countess", .real ⟨0x4012000000000000⟩, .integer 7, .null, .text "ada", .integer 36,
    .integer 0, .integer 1, .null, .text "other", .blob [1, 2], .text "none"]

/-- The user is read from the row and shown by her name; without two of the
columns, the one that is declared first is missed. -/
theorem samples_read_by_name_user :
    ada.rating.isNaN = false ∧ adaRow.Stores User.mapping ada ∧
      User.mapping.ofRow adaRow = .ok { ada with displayName := "@ada" } ∧
      User.mapping.ofRow (adaRow.without ["rating", "age"]) = .error (.missingColumn "age") := by
  have hnumber : ada.rating.isNaN = false := by decide +kernel
  have hstores : adaRow.Stores User.mapping ada := Row.stores_iff.2 (by decide +kernel)
  have hread := samples_read_by_name.1 ada hnumber
  refine ⟨hnumber, hstores, hread.ofRow_eq_ok adaRow hstores, ?_⟩
  obtain ⟨c, hc, hmissed⟩ := hread.ofRow_without adaRow hstores ["rating", "age"] (by decide) (by decide)
  have hfirst : User.mapping.columns.find? (· ∈ ["rating", "age"]) = some "age" := by decide
  obtain rfl : c = "age" := Option.some.inj (hc.symm.trans hfirst)
  exact hmissed

end Sample

end TypedTables

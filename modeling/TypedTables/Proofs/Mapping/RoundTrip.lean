import TypedTables.Mapping
import TypedTables.Proofs.Extraction.Registry
import TypedTables.Proofs.Row
import TypedTables.Proofs.Value.FieldType
/-!
# TypedTables — instances that come back

An instance that is written to a row is read back from it. A slot that leaves
its cell empty is one whose value the empty cell stands for: no value, or the
number that a key has before it is numbered. The exception is a key that need
not be there and was given the number zero. Zero is the mark of a key that
waits for its number, so it is not written, and the key comes back as none.
-/

namespace TypedTables

/-! ## One slot -/

namespace Slot

variable {s : Slot} {x : s.type.Carrier} {row : Row}

/-- Whether a value is a key that was given the mark of an unset one. -/
def isZeroKey (s : Slot) (x : s.type.Carrier) : Bool := s.role == .numbered && s.type.isOptionalZero x

/-- What comes back of a value. -/
def reread (s : Slot) (x : s.type.Carrier) : s.type.Carrier :=
  if s.isZeroKey x then s.type.initial else x

theorem reread_of_ne (h : s.type.toValue x ≠ .integer 0) : s.reread x = x := by
  have hzero : s.isZeroKey x = false := by
    rw [isZeroKey, FieldType.isOptionalZero_of_ne h, Bool.and_false]
  rw [reread, hzero, if_neg Bool.false_ne_true]

theorem reread_eq_iff (hs : s.type.scalar ≠ .any) : s.reread x = x ↔ s.isZeroKey x = false := by
  by_cases hvalue : s.type.toValue x = .integer 0
  · have hinitial := FieldType.eq_initial_iff hs hvalue
    unfold reread isZeroKey
    cases s.role == .numbered with
    | false => exact ⟨fun _ => rfl, fun _ => rfl⟩
    | true =>
      rw [Bool.true_and]
      by_cases hzero : s.type.isOptionalZero x = true
      · rw [hzero, if_pos rfl, hinitial, hzero]
      · rw [if_neg hzero]
        exact ⟨fun _ => eq_false_of_ne_true hzero, fun _ => rfl⟩
  · refine ⟨fun _ => ?_, fun _ => reread_of_ne hvalue⟩
    rw [isZeroKey, FieldType.isOptionalZero_of_ne hvalue, Bool.and_false]

/-- A number that the database still has to give is read as the first one. -/
theorem reread_of_unset (hs : s.type.scalar ≠ .any) (hrole : s.role = .numbered)
    (h : (s.type.toValue x).isUnsetKey = true) : s.reread x = s.type.initial := by
  rcases hvalue : s.type.toValue x with _ | n | r | t | b <;> rw [hvalue] at h
  case null =>
    have hne : s.type.toValue x ≠ .integer 0 := by rw [hvalue]; exact Value.noConfusion
    rw [reread_of_ne hne]
    exact FieldType.eq_initial_of_null hs hvalue
  case integer =>
    obtain rfl : n = 0 := beq_iff_eq.1 h
    unfold reread
    by_cases hzero : s.isZeroKey x = true
    · rw [hzero, if_pos rfl]
    · rw [if_neg hzero]
      have hnot : s.type.isOptionalZero x = false := by
        rw [isZeroKey, hrole, beq_self_eq_true, Bool.true_and] at hzero
        exact eq_false_of_ne_true hzero
      exact ((FieldType.eq_initial_iff hs hvalue).2 hnot).symm
  all_goals cases h

theorem reread_of_not_numbered (hrole : s.role ≠ .numbered) : s.reread x = x := by
  rw [reread, isZeroKey, beq_false_of_ne hrole, Bool.false_and, if_neg Bool.false_ne_true]

/-- Of a slot that the database does not number, the cell is the value's, or
the value is none and the cell is empty. -/
theorem cell_of_not_numbered (hrole : s.role ≠ .numbered) :
    (s.write x).getD .null = s.type.toValue x := by
  obtain ⟨field, column, type, role, isKey⟩ := s
  unfold write
  dsimp only at hrole x ⊢
  cases role with
  | numbered => exact absurd rfl hrole
  | always => rfl
  | optional =>
    cases type with
    | required t => rfl
    | optional t => cases x <;> rfl

/-- **A slot reads what it wrote.** -/
theorem read_of_write (hs : s.type.scalar ≠ .any) (hx : s.type.isNaN x = false)
    (hrow : row.value s.column = .ok ((s.write x).getD .null)) : s.read row = .ok (s.reread x) := by
  by_cases hrole : s.role = .numbered
  · have hwrite : s.write x =
        if (s.type.toValue x).isUnsetKey then none else some (s.type.toValue x) := by
      rw [write, hrole]
    have hread : s.read row = row.value s.column >>= fun key =>
        if key.isNull then pure s.type.initial else s.type.ofValue s.column key := by
      rw [read, hrole]
    by_cases hunset : (s.type.toValue x).isUnsetKey = true
    · -- nothing is written, and the empty cell leaves the first value in place
      rw [hwrite, if_pos hunset] at hrow
      rw [hread, hrow, reread_of_unset hs hrole hunset]
      rfl
    · -- the cell is neither empty nor zero, so it is converted back
      rw [hwrite, if_neg hunset] at hrow
      have hnull : (s.type.toValue x).isNull = false := by
        cases hvalue : s.type.toValue x with
        | null =>
          rw [hvalue] at hunset
          exact absurd rfl hunset
        | _ => rfl
      have hzero : s.type.toValue x ≠ .integer 0 := by
        intro hvalue
        rw [hvalue] at hunset
        exact hunset rfl
      rw [hread, hrow, reread_of_ne hzero, ← FieldType.ofValue_toValue s.column hs hx]
      show (if (s.type.toValue x).isNull then _ else _) = _
      rw [hnull, if_neg Bool.false_ne_true]
      rfl
  · rw [cell_of_not_numbered hrole] at hrow
    have hread : s.read row = row.get s.type s.column := by
      -- the other two roles are read alike
      unfold read
      split
      case h_1 h => exact absurd h hrole
      case h_2 => rfl
    rw [hread, Row.get, hrow, reread_of_not_numbered hrole]
    exact FieldType.ofValue_toValue s.column hs hx

end Slot

/-! ## All slots -/

namespace Instance

variable {row : Row}

/-- Whether an instance has a real that is not a number. -/
def hasNaN : (slots : List Slot) → Instance slots → Bool
  | [], _ => false
  | s :: slots, (x, xs) => s.type.isNaN x || hasNaN slots xs

/-- Whether an instance has a key that was given the mark of an unset one. -/
def hasZeroKey : (slots : List Slot) → Instance slots → Bool
  | [], _ => false
  | s :: slots, (x, xs) => s.isZeroKey x || hasZeroKey slots xs

/-- What comes back of an instance. -/
def reread : (slots : List Slot) → Instance slots → Instance slots
  | [], _ => ()
  | s :: slots, (x, xs) => (s.reread x, reread slots xs)

theorem reread_eq_iff : ∀ {slots : List Slot} {xs : Instance slots}, (∀ s ∈ slots, s.type.scalar ≠ .any) →
    (reread slots xs = xs ↔ hasZeroKey slots xs = false) := by
  intro slots
  induction slots with
  | nil => exact fun _ => ⟨fun _ => rfl, fun _ => rfl⟩
  | cons s slots ih =>
    rintro ⟨x, xs⟩ hslots
    rw [List.forall_mem_cons] at hslots
    rw [reread, hasZeroKey, Prod.mk.injEq, Slot.reread_eq_iff hslots.1, ih hslots.2, Bool.or_eq_false_iff]

/-- Columns are written in the order of their slots, and some are left out. -/
theorem entries_sublist : ∀ (slots : List Slot) (xs : Instance slots),
    ((entries slots xs).map Prod.fst).Sublist (slots.map (·.column)) := by
  intro slots
  induction slots with
  | nil => exact fun _ => .refl _
  | cons s slots ih =>
    rintro ⟨x, xs⟩
    rw [entries]
    split
    · exact (ih xs).cons_cons _
    · exact (ih xs).cons _

/-- The first slot's column shows what it wrote, and the other columns what
the other slots did. -/
theorem lookup_entries_cons {s : Slot} {slots : List Slot} {x : s.type.Carrier} {xs : Instance slots}
    (hnew : s.column ∉ slots.map (·.column)) (c : String) :
    (entries (s :: slots) (x, xs)).lookup c =
      if c = s.column then s.write x else (entries slots xs).lookup c := by
  have hrest : (entries slots xs).lookup s.column = none := by
    rw [List.lookup_eq_none_iff]
    intro e he
    refine bne_iff_ne.2 fun hcolumn => hnew ?_
    rw [hcolumn]
    exact (entries_sublist slots xs).subset (List.mem_map_of_mem he)
  rw [entries]
  split
  case h_1 v hv =>
    rw [List.lookup_cons]
    by_cases hc : c = s.column
    · rw [hc, beq_self_eq_true, if_pos rfl, hv]
    · rw [beq_false_of_ne hc, if_neg hc]
  case h_2 hv =>
    by_cases hc : c = s.column
    · rw [if_pos hc, hc, hrest, hv]
    · rw [if_neg hc]

/-- **Slots read what they wrote**, by induction on the slots: what the row
shows under a column is what its slot wrote, as no other slot has it. -/
theorem ofRow_of_lookup : ∀ {slots : List Slot} {xs : Instance slots},
    (∀ s ∈ slots, s.type.scalar ≠ .any) → (slots.map (·.column)).Nodup → hasNaN slots xs = false →
    (∀ c ∈ slots.map (·.column), row.value c = .ok (((entries slots xs).lookup c).getD .null)) →
    ofRow row slots = .ok (reread slots xs) := by
  intro slots
  induction slots with
  | nil => exact fun _ _ _ _ => rfl
  | cons s slots ih =>
    rintro ⟨x, xs⟩ hslots hnodup hnan hrow
    rw [List.map_cons, List.nodup_cons] at hnodup
    rw [List.forall_mem_cons] at hslots
    rw [hasNaN, Bool.or_eq_false_iff] at hnan
    rw [List.map_cons, List.forall_mem_cons, lookup_entries_cons hnodup.1, if_pos rfl] at hrow
    have hone := Slot.read_of_write hslots.1 hnan.1 hrow.1
    have hrest := ih hslots.2 hnodup.2 hnan.2 fun c hc => by
      have hne : c ≠ s.column := fun h => hnodup.1 (h ▸ hc)
      rw [hrow.2 c hc, lookup_entries_cons hnodup.1, if_neg hne]
    rw [ofRow, hone, hrest]
    rfl

/-- **An instance comes back from the row of its payload.** -/
theorem ofRow_toRow {slots : List Slot} {xs : Instance slots} (hslots : ∀ s ∈ slots, s.type.scalar ≠ .any)
    (hnodup : (slots.map (·.column)).Nodup) (hnan : hasNaN slots xs = false) :
    ofRow ((toValues slots xs).toRow (slots.map (·.column))) slots = .ok (reread slots xs) := by
  have hvalues : toValues slots xs = ⟨entries slots xs⟩ :=
    Values.ofList_of_nodup ((entries_sublist slots xs).nodup hnodup)
  refine ofRow_of_lookup hslots hnodup hnan fun c hc => ?_
  rw [Row.value_toRow _ hc, hvalues]
  rfl

end Instance

/-! ## Models -/

/-- **A struct comes back from the row of its payload**: its slots as they are
reread, and whatever it has besides them as in a new struct. -/
theorem Mapping.ofRow_toValues {α : Type} {m : Model} {slots : List Slot}
    (hscalars : ∀ s ∈ slots, s.type.scalar ≠ .any) (hcolumns : slots.map (·.column) = m.columns)
    (hnodup : m.columns.Nodup) (options : DdlOptions) (view : α → Instance slots)
    (replace : Instance slots → α → α) (initial : α) (hooks : α → α) {x : α}
    (hnan : Instance.hasNaN slots (view x) = false) :
    (ofSlots m options slots view replace initial hooks).ofRow
      (((ofSlots m options slots view replace initial hooks).toValues x).toRow m.columns) =
        .ok (hooks (replace (Instance.reread slots (view x)) initial)) := by
  have hread := Instance.ofRow_toRow hscalars (hcolumns ▸ hnodup) hnan
  rw [hcolumns] at hread
  show (do return hooks (replace (← Instance.ofRow
    ((Instance.toValues slots (view x)).toRow m.columns) slots) initial)) = _
  rw [hread]
  rfl

/-- The mapping of the struct that has a field for each slot and no other, and
nothing besides. -/
def Mapping.ofModel (m : Model) (options : DdlOptions) (slots : List Slot)
    (hooks : Instance slots → Instance slots) : Mapping (Instance slots) :=
  .ofSlots m options slots id (fun xs _ => xs) (Instance.initial slots) hooks

theorem Field.exists_slot? {f : Field} (h : f.IsSound) :
    ∃ s, f.slot? = some s ∧ s.column = f.columnName ∧ s.type.scalar ≠ .any := by
  obtain ⟨t, ht, hscalar, -⟩ := FieldType.exists_ofDeclared? h.isTyped
  refine ⟨{ field := f.name, column := f.columnName, type := t, role := f.role, isKey := f.isPrimaryKey },
    ?_, rfl, hscalar⟩
  rw [Field.slot?, ht]
  rfl

/-- **A sound model has a slot for each of its fields**, under the columns of
the model. -/
theorem Model.exists_slots? {m : Model} (h : m.IsSound) :
    ∃ slots, m.slots? = some slots ∧ slots.map (·.column) = m.columns ∧
      ∀ s ∈ slots, s.type.scalar ≠ .any := by
  have hfields : ∀ fs : List Field, (∀ f ∈ fs, f.IsSound) →
      ∃ slots, fs.mapM Field.slot? = some slots ∧ slots.map (·.column) = fs.map (·.columnName) ∧
        ∀ s ∈ slots, s.type.scalar ≠ .any := by
    intro fs
    induction fs with
    | nil => exact fun _ => ⟨[], rfl, rfl, List.forall_mem_nil _⟩
    | cons f fs ih =>
      intro hsound
      rw [List.forall_mem_cons] at hsound
      obtain ⟨s, hs, hcolumn, hscalar⟩ := Field.exists_slot? hsound.1
      obtain ⟨slots, hslots, hcolumns, hscalars⟩ := ih hsound.2
      refine ⟨s :: slots, ?_, ?_, List.forall_mem_cons.2 ⟨hscalar, hscalars⟩⟩
      · rw [List.mapM_cons, hs, hslots]
        rfl
      · rw [List.map_cons, List.map_cons, hcolumn, hcolumns]
  exact hfields m.fields h.fields_areSound

/-- **Instances of extracted models come back.** Every extracted model has a
slot for each field. An instance without NaNs that is written and read again
succeeds to do so, and is the same up to the hooks, unless it has a key that
need not be there and was given zero. Such a key comes back as none. -/
theorem instances_come_back {d : Declarations} {r : Registry} (h : extract d = .ok r) {m : Model}
    (hm : m ∈ r.models.values) :
    ∃ slots, m.slots? = some slots ∧ ∀ (options : DdlOptions) (hooks : Instance slots → Instance slots)
      (x : Instance slots), Instance.hasNaN slots x = false →
        (Mapping.ofModel m options slots hooks).ofRow
          (((Mapping.ofModel m options slots hooks).toValues x).toRow m.columns) =
            .ok (hooks (Instance.reread slots x)) ∧
        (Instance.reread slots x = x ↔ Instance.hasZeroKey slots x = false) := by
  obtain ⟨hnone, rfl⟩ := Extraction.errors_of_extract h
  have hsound := (Extraction.isSound_of_errors_eq_nil hnone).models_areSound m hm
  obtain ⟨slots, hslots, hcolumns, hscalars⟩ := Model.exists_slots? hsound
  refine ⟨slots, hslots, fun options hooks x hnan => ⟨?_, Instance.reread_eq_iff hscalars⟩⟩
  exact Mapping.ofRow_toValues hscalars hcolumns hsound.columns_nodup options _ _ _ _ hnan

/-- The slots of the books. -/
def bookSlots : List Slot :=
  [{ field := "id", column := "id", type := .required (.integer .i64), role := .numbered, isKey := true },
    { field := "title", column := "title", type := .required .text, role := .always },
    { field := "author", column := "author_id", type := .optional (.integer .i64), role := .optional }]

/-- A book that waits for its number. -/
def emma : Instance bookSlots := (⟨0, by decide⟩, "Emma", some ⟨3, by decide⟩, ())

/-- It comes back with its title and its author. -/
theorem instances_come_back_book :
    ∃ r m, extract libraryDeclarations = .ok r ∧ m ∈ r.models.values ∧ m.slots? = some bookSlots ∧
      (Mapping.ofModel m {} bookSlots id).ofRow
        (((Mapping.ofModel m {} bookSlots id).toValues emma).toRow m.columns) = .ok emma := by
  have hok := extract_of_errors_eq_nil
    (show (Extraction.findings libraryDeclarations).errors = [] by decide +kernel)
  obtain ⟨m, hm, hbook⟩ : ∃ m ∈ (Extraction.register (Extraction.findings libraryDeclarations).result.1
      (Extraction.findings libraryDeclarations).result.2).models.values, m.slots? = some bookSlots := by
    decide +kernel
  obtain ⟨slots, hslots, hback⟩ := instances_come_back hok hm
  obtain rfl : bookSlots = slots := Option.some.inj (hbook.symm.trans hslots)
  obtain ⟨hread, hsame⟩ := hback {} id emma rfl
  refine ⟨_, m, hok, hm, hbook, ?_⟩
  rw [hread]
  exact congrArg Except.ok (hsame.2 rfl)

/-- A voucher whose key need not be there. -/
def voucherDeclarations : Declarations where
  providers := [⟨"desk", ProviderKind.localRoot, none, none⟩]
  models :=
    [{ name := "Voucher", packagePath := some "crate::desk", provider := some "desk",
        members :=
          [⟨"id", some "Option<i64>", some { isPrimaryKey := true, isAutoIncrement := true }, false⟩] }]

/-- The slot of its key. -/
def voucherSlot : Slot :=
  { field := "id", column := "id", type := .optional (.integer .i64), role := .numbered, isKey := true }

/-- **Not all of them come back as they were**: the key of the voucher is given
zero, and none is read. -/
theorem not_all_come_back :
    ¬ ∀ (d : Declarations) (r : Registry), extract d = .ok r → ∀ m ∈ r.models.values,
      ∀ slots, m.slots? = some slots → ∀ x : Instance slots, Instance.hasNaN slots x = false →
        (Mapping.ofModel m {} slots id).ofRow
          (((Mapping.ofModel m {} slots id).toValues x).toRow m.columns) = .ok x := by
  intro hall
  have hok := extract_of_errors_eq_nil
    (show (Extraction.findings voucherDeclarations).errors = [] by decide +kernel)
  obtain ⟨m, hm, hslots, hcolumns⟩ : ∃ m ∈ (Extraction.register
      (Extraction.findings voucherDeclarations).result.1
      (Extraction.findings voucherDeclarations).result.2).models.values,
      m.slots? = some [voucherSlot] ∧ m.columns = ["id"] := by decide +kernel
  have hback := hall _ _ hok m hm _ hslots (some ⟨0, by decide⟩, ()) rfl
  rw [hcolumns] at hback
  have hnone : @Eq (Except MappingError (Instance [voucherSlot])) (.ok (none, ()))
      (.ok (some ⟨0, by decide⟩, ())) := hback
  cases hnone

end TypedTables

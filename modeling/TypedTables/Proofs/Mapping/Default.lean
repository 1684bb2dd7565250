import TypedTables.Database.Affinity
import TypedTables.Proofs.Mapping.RoundTrip
/-!
# TypedTables — defaults that are read

A column that a row does not write takes its default, and the row is read with
it. Extraction checks a default against what the field means. The field may be
declared with a narrower type, or one without a sign, and what is read has to lie
in the range of that type. Nothing else stands between a default and its field.
-/

namespace TypedTables

/-! ## What a column keeps -/

/-- The value that a default literal stands for. -/
def DefaultValue.value : DefaultValue → Value
  | .bool b => .ofBool b
  | .integer n => .integer n
  | .real x => .real x
  | .text s => .text s

/-- What the column of a field keeps where there is a default and a row does not
write it. Only a column that numbers its rows would keep a number instead. -/
def Field.defaultCell? (f : Field) : Option Value :=
  f.defaultValue.map fun v => Cell.stored (.ofTypeName f.semanticType.affinity.sql) v.value

/-- The types of columns are known to the engine by their names. -/
theorem ColumnAffinity.ofTypeName_sql (a : Affinity) : ofTypeName a.sql =
    match a with
    | .integer => .integer
    | .real => .real
    | .text => .text
    | .blob => .blob := by
  cases a <;> decide +kernel

namespace DefaultValue

variable {v : DefaultValue} {t : SemanticType}

/-- **What a column keeps for a default that fits**: a number for a truth value
or an integer, which is the default itself but for a truth value; a real in a
column of reals, also for a whole number; and a text as it is. -/
theorem stored_cases (hfits : v.fits t = true) :
    (t.affinity = .integer ∧ ∃ n, Cell.stored (.ofTypeName t.affinity.sql) v.value = .integer n ∧
      (v = .integer n ∨ (∃ b, v = .bool b) ∧ (n = 0 ∨ n = 1))) ∨
    (t.affinity = .real ∧ ∃ x, Cell.stored (.ofTypeName t.affinity.sql) v.value = .real x) ∨
    (t.affinity = .text ∧ ∃ s, Cell.stored (.ofTypeName t.affinity.sql) v.value = .text s) := by
  rw [ColumnAffinity.ofTypeName_sql]
  cases v with
  | bool b =>
    obtain rfl : t = .boolean := by cases t <;> first | rfl | cases hfits
    exact .inl ⟨rfl, _, rfl, .inr ⟨⟨b, rfl⟩, by cases b <;> decide⟩⟩
  | integer n =>
    have ha : t.affinity = .integer ∨ t.affinity = .real := by
      cases t <;> first | exact .inl rfl | exact .inr rfl | cases hfits
    rcases ha with ha | ha <;> rw [ha]
    · exact .inl ⟨rfl, n, rfl, .inl rfl⟩
    · exact .inr (.inl ⟨rfl, _, rfl⟩)
  | real x =>
    obtain rfl : t = .real := by cases t <;> first | rfl | cases hfits
    refine .inr (.inl ⟨rfl, ?_⟩)
    -- a whole real is kept as an integer, and is a real again when it is read
    show ∃ y, Cell.toReal (Cell.toWhole (.real x)) = .real y
    rcases hwhole : Cell.integerOfReal? x with _ | n <;> simp only [Cell.toWhole, hwhole] <;> exact ⟨_, rfl⟩
  | text s =>
    have ha : t.affinity = .text := by cases t <;> first | rfl | cases hfits
    rw [ha]
    exact .inr (.inr ⟨rfl, s, rfl⟩)

end DefaultValue

/-! ## Reading it -/

/-- Every integer type has one. -/
theorem IntegerType.holds_one (t : IntegerType) : t.Holds 1 := by cases t <;> decide

/-- **A default that overflows**: the field is declared with an integer type that
does not have it. -/
def Field.DefaultOverflows (f : Field) (i : IntegerType) (n : Int64) : Prop :=
  ∃ t, FieldType.ofDeclared? f.declaredType = some t ∧ t.scalar = .integer i ∧
    f.defaultValue = some (.integer n) ∧ ¬i.Holds n.toInt

/-- The types whose values are kept in a column of some affinity. -/
theorem ScalarType.eq_of_affinity {t : ScalarType} {declared : SemanticType}
    (h : t.semanticType? = some declared) :
    match declared.affinity with
    | .integer => t = .bool ∨ ∃ i, t = .integer i
    | .real => t = .f32 ∨ t = .f64
    | .text => t = .text ∨ t = .uri
    | .blob => t = .bytes := by
  cases t with
  | integer i => cases i <;> (obtain rfl := Option.some.inj h; exact .inr ⟨_, rfl⟩)
  | bool => obtain rfl := Option.some.inj h; exact .inl rfl
  | f32 => obtain rfl := Option.some.inj h; exact .inl rfl
  | f64 => obtain rfl := Option.some.inj h; exact .inr rfl
  | text => obtain rfl := Option.some.inj h; exact .inl rfl
  | bytes => obtain rfl := Option.some.inj h; rfl
  | uri => obtain rfl := Option.some.inj h; exact .inr rfl
  | any => cases h

namespace FieldType

variable {t : FieldType} {column : String} {cell : Value}

/-- A cell that is not empty is read as the scalar type reads it. -/
theorem exists_ofValue_of_scalar (hcell : cell ≠ .null) (h : ∃ x, t.scalar.ofValue column cell = .ok x) :
    ∃ x, t.ofValue column cell = .ok x := by
  obtain ⟨x, hx⟩ := h
  cases t with
  | required t => exact ⟨x, hx⟩
  | optional t =>
    rw [ofValue_of_ne_null column hcell]
    have hscalar : t.ofValue column cell = .ok x := hx
    rw [hscalar]
    exact ⟨some x, rfl⟩

/-- And it is out of range if it is for the scalar type. -/
theorem ofValue_of_overflow {i : IntegerType} {n : Int64} (ht : t.scalar = .integer i)
    (hn : ¬i.Holds n.toInt) : t.ofValue column (.integer n) = .error (.outOfRange column i n) := by
  have hscalar : ScalarType.ofValue column (.integer i) (.integer n) = .error (.outOfRange column i n) :=
    dif_neg hn
  cases t with
  | required t =>
    obtain rfl : t = .integer i := ht
    exact hscalar
  | optional t =>
    obtain rfl : t = .integer i := ht
    rw [ofValue_of_ne_null column Value.noConfusion, hscalar]
    rfl

end FieldType

namespace Field

variable {f : Field} {cell : Value} {t : FieldType}

/-- A default is never an empty cell. -/
theorem ne_null_of_defaultCell? (hf : f.IsSound) (hcell : f.defaultCell? = some cell) : cell ≠ .null := by
  obtain ⟨v, hv, rfl⟩ := Option.map_eq_some_iff.1 hcell
  rcases DefaultValue.stored_cases (hf.default_fits v hv) with ⟨-, n, h, -⟩ | ⟨-, x, h⟩ | ⟨-, s, h⟩ <;>
    rw [h] <;> exact Value.noConfusion

/-- **A default that overflows is read as a fault.** -/
theorem ofValue_of_defaultOverflows (hf : f.IsSound) (hcell : f.defaultCell? = some cell)
    (ht : FieldType.ofDeclared? f.declaredType = some t) {i : IntegerType} {n : Int64}
    (h : f.DefaultOverflows i n) (column : String) :
    t.ofValue column cell = .error (.outOfRange column i n) := by
  obtain ⟨u, hu, hi, hv, hn⟩ := h
  obtain rfl : u = t := Option.some.inj (hu.symm.trans ht)
  obtain ⟨v, hv', rfl⟩ := Option.map_eq_some_iff.1 hcell
  obtain rfl : v = .integer n := Option.some.inj (hv'.symm.trans hv)
  obtain ⟨w, hw, -, declared, hdeclared, haffinity⟩ := FieldType.exists_ofDeclared? hf.isTyped
  obtain rfl : w = u := Option.some.inj (hw.symm.trans hu)
  have htypes := ScalarType.eq_of_affinity hdeclared
  rw [hi] at htypes
  rcases DefaultValue.stored_cases (hf.default_fits _ hv) with ⟨-, k, hk, hk'⟩ | ⟨ha, -⟩ | ⟨ha, -⟩
  · -- an integer is kept as it is
    rcases hk' with hk' | ⟨⟨b, hb⟩, -⟩
    · obtain rfl : n = k := DefaultValue.integer.inj hk'
      rw [hk]
      exact FieldType.ofValue_of_overflow hi hn
    · exact DefaultValue.noConfusion hb
  -- in the other columns there is no integer type
  · rw [haffinity, ha] at htypes
    rcases htypes with h32 | h64
    · cases h32
    · cases h64
  · rw [haffinity, ha] at htypes
    rcases htypes with htext | huri
    · cases htext
    · cases huri

/-- **A default that does not is read.** -/
theorem exists_ofValue_of_not_defaultOverflows (hf : f.IsSound) (hcell : f.defaultCell? = some cell)
    (ht : FieldType.ofDeclared? f.declaredType = some t) (h : ¬∃ i n, f.DefaultOverflows i n)
    (column : String) : ∃ x, t.ofValue column cell = .ok x := by
  refine FieldType.exists_ofValue_of_scalar (ne_null_of_defaultCell? hf hcell) ?_
  obtain ⟨v, hv, rfl⟩ := Option.map_eq_some_iff.1 hcell
  obtain ⟨w, hw, -, declared, hdeclared, haffinity⟩ := FieldType.exists_ofDeclared? hf.isTyped
  obtain rfl : w = t := Option.some.inj (hw.symm.trans ht)
  have htypes := ScalarType.eq_of_affinity hdeclared
  rcases DefaultValue.stored_cases (hf.default_fits v hv) with ⟨ha, n, hn, hv'⟩ | ⟨ha, x, hx⟩ | ⟨ha, s, hs⟩
  · rw [haffinity, ha] at htypes
    rw [hn]
    rcases htypes with hbool | ⟨i, hi⟩
    · rw [hbool]
      exact ⟨_, rfl⟩
    · -- a truth value is stored as zero or one, so only a number can be too large
      have hholds : i.Holds n.toInt := by
        rcases hv' with rfl | ⟨-, rfl | rfl⟩
        · by_contra hnot
          exact h ⟨i, n, w, hw, hi, hv, hnot⟩
        · exact i.holds_zero
        · exact i.holds_one
      rw [hi]
      exact ⟨_, dif_pos hholds⟩
  · rw [haffinity, ha] at htypes
    rw [hx]
    rcases htypes with h32 | h64
    · rw [h32]
      exact ⟨_, rfl⟩
    · rw [h64]
      exact ⟨_, rfl⟩
  · rw [haffinity, ha] at htypes
    rw [hs]
    rcases htypes with htext | huri
    · rw [htext]
      exact ⟨_, rfl⟩
    · rw [huri]
      exact ⟨_, rfl⟩

theorem exists_ofValue_iff (hf : f.IsSound) (hcell : f.defaultCell? = some cell)
    (ht : FieldType.ofDeclared? f.declaredType = some t) (column : String) :
    (∃ x, t.ofValue column cell = .ok x) ↔ ¬∃ i n, f.DefaultOverflows i n := by
  constructor
  · rintro ⟨x, hx⟩ ⟨i, n, hoverflow⟩
    rw [ofValue_of_defaultOverflows hf hcell ht hoverflow] at hx
    cases hx
  · intro hfits
    exact exists_ofValue_of_not_defaultOverflows hf hcell ht hfits column

end Field

/-! ## Rows that show defaults -/

/-- A cell that is not empty is read alike in every role. -/
theorem Slot.read_of_ne_null {s : Slot} {row : Row} {cell : Value} (hrow : row.value s.column = .ok cell)
    (hcell : cell ≠ .null) : s.read row = s.type.ofValue s.column cell := by
  have hnull : cell.isNull = false := by
    cases cell with
    | null => exact absurd rfl hcell
    | _ => rfl
  unfold read
  split
  · rw [hrow]
    show (if cell.isNull then _ else _) = _
    rw [hnull, if_neg Bool.false_ne_true]
  · rw [Row.get, hrow]
    rfl

/-- A first slot and the others are read if each of both is. -/
theorem Instance.exists_ofRow_cons_iff {row : Row} {s : Slot} {slots : List Slot} :
    (∃ xs, ofRow row (s :: slots) = .ok xs) ↔
      (∃ x, s.read row = .ok x) ∧ ∃ xs, ofRow row slots = .ok xs := by
  rw [ofRow]
  constructor
  · rintro ⟨xs, h⟩
    rcases hx : s.read row with e | x <;> rw [hx] at h
    · cases h
    · rcases hxs : ofRow row slots with e | xs <;> rw [hxs] at h
      · cases h
      · exact ⟨⟨x, rfl⟩, xs, rfl⟩
  · rintro ⟨⟨x, hx⟩, xs, hxs⟩
    rw [hx, hxs]
    exact ⟨(x, xs), rfl⟩

/-- **A row is an instance if the slot of every field is read**, by induction on
the fields. -/
theorem Instance.exists_ofRow_iff {row : Row} {fs : List Field} {slots : List Slot}
    (hslots : fs.mapM Field.slot? = some slots) :
    (∃ xs, ofRow row slots = .ok xs) ↔ ∀ f ∈ fs, ∀ s ∈ f.slot?, ∃ x, s.read row = .ok x := by
  induction fs generalizing slots with
  | nil =>
    obtain rfl := Option.some.inj hslots
    exact ⟨fun _ => List.forall_mem_nil _, fun _ => ⟨(), rfl⟩⟩
  | cons f fs ih =>
    rw [List.mapM_cons] at hslots
    obtain ⟨s, hs, hslots⟩ := Option.bind_eq_some_iff.1 hslots
    obtain ⟨rest, hrest, hslots⟩ := Option.bind_eq_some_iff.1 hslots
    obtain rfl := Option.some.inj hslots
    have hfirst : (∀ s ∈ f.slot?, ∃ x, s.read row = .ok x) ↔ ∃ x, s.read row = .ok x := by
      simp only [hs, Option.mem_some_iff, forall_eq']
    rw [exists_ofRow_cons_iff, List.forall_mem_cons, hfirst, ih hrest]

namespace Field

variable {f : Field} {row : Row} {cell : Value}

/-- **A field whose column shows its default is read unless the default
overflows.** -/
theorem read_of_defaultCell? (hf : f.IsSound) (hcell : f.defaultCell? = some cell)
    (hrow : row.value f.columnName = .ok cell) :
    (∀ s ∈ f.slot?, ∃ x, s.read row = .ok x) ↔ ¬∃ i n, f.DefaultOverflows i n := by
  obtain ⟨t, ht, -⟩ := FieldType.exists_ofDeclared? hf.isTyped
  have hnull := ne_null_of_defaultCell? hf hcell
  have hslot : (∀ s ∈ f.slot?, ∃ x, s.read row = .ok x) ↔ ∃ x, t.ofValue f.columnName cell = .ok x := by
    rw [slot?, ht]
    simp only [Option.map_some, Option.mem_some_iff, forall_eq']
    rw [Slot.read_of_ne_null hrow hnull]
  rw [hslot]
  exact exists_ofValue_iff hf hcell ht f.columnName

end Field

/-! ## Extracted models -/

/-- **Defaults are read unless they overflow.** A default of an extracted model
is read as a value of its field unless the type of the field is an integer type
that does not have it, and then it is out of range. A row in which some fields
show their defaults and the others are read is an instance of the model, unless
one of these defaults overflows. -/
theorem defaults_read_iff {d : Declarations} {r : Registry} (h : extract d = .ok r) {m : Model}
    (hm : m ∈ r.models.values) :
    (∀ f ∈ m.fields, ∀ cell, f.defaultCell? = some cell →
      ∃ t, FieldType.ofDeclared? f.declaredType = some t ∧
        ((∃ x, t.ofValue f.columnName cell = .ok x) ↔ ¬∃ i n, f.DefaultOverflows i n) ∧
        ∀ i n, f.DefaultOverflows i n →
          t.ofValue f.columnName cell = .error (.outOfRange f.columnName i n)) ∧
    ∃ slots, m.slots? = some slots ∧ ∀ (row : Row) (omitted : Field → Prop),
      (∀ f ∈ m.fields, omitted f →
        ∃ cell, f.defaultCell? = some cell ∧ row.value f.columnName = .ok cell) →
      (∀ f ∈ m.fields, ¬omitted f → ∀ s ∈ f.slot?, ∃ x, s.read row = .ok x) →
        ((∃ xs, Instance.ofRow row slots = .ok xs) ↔
          ∀ f ∈ m.fields, omitted f → ¬∃ i n, f.DefaultOverflows i n) := by
  obtain ⟨hnone, rfl⟩ := Extraction.errors_of_extract h
  have hsound := (Extraction.isSound_of_errors_eq_nil hnone).models_areSound m hm
  constructor
  · intro f hf cell hcell
    have hfield := hsound.fields_areSound f hf
    obtain ⟨t, ht, -⟩ := FieldType.exists_ofDeclared? hfield.isTyped
    refine ⟨t, ht, Field.exists_ofValue_iff hfield hcell ht f.columnName, ?_⟩
    intro i n hoverflow
    exact Field.ofValue_of_defaultOverflows hfield hcell ht hoverflow f.columnName
  · obtain ⟨slots, hslots, -, -⟩ := Model.exists_slots? hsound
    refine ⟨slots, hslots, fun row omitted homitted hother => ?_⟩
    rw [Instance.exists_ofRow_iff hslots]
    constructor
    · intro hread f hf hleft
      obtain ⟨cell, hcell, hrow⟩ := homitted f hf hleft
      exact (Field.read_of_defaultCell? (hsound.fields_areSound f hf) hcell hrow).1 (hread f hf)
    · intro hfits f hf
      by_cases hleft : omitted f
      · obtain ⟨cell, hcell, hrow⟩ := homitted f hf hleft
        exact (Field.read_of_defaultCell? (hsound.fields_areSound f hf) hcell hrow).2 (hfits f hf hleft)
      · exact hother f hf hleft

/-- Lamps that are dimmed to a level. A new lamp's does not fit into a byte. -/
def lampDeclarations : Declarations where
  providers := [⟨"house", ProviderKind.localRoot, none, none⟩]
  models :=
    [{ name := "Lamp", table := some "lamps", packagePath := some "crate::house",
        provider := some "house",
        members :=
          [⟨"id", some "i64", some { isPrimaryKey := true }, false⟩,
            ⟨"level", some "Option<u8>", some { defaultValue := some (.integer 300) }, false⟩] }]

/-- The slot of a lamp's key. -/
def lampKey : Slot :=
  { field := "id", column := "id", type := .required (.integer .i64), role := .always, isKey := true }

/-- A lamp without a level is stored, and is not read. -/
theorem defaults_read_iff_lamp : ∃ r m, extract lampDeclarations = .ok r ∧ m ∈ r.models.values ∧
    (∃ f ∈ m.fields, f.defaultCell? = some (.integer 300) ∧
      ∃ t, FieldType.ofDeclared? f.declaredType = some t ∧
        t.ofValue "level" (.integer 300) = .error (.outOfRange "level" .u8 300)) ∧
    ∃ slots, m.slots? = some slots ∧
      ¬∃ xs, Instance.ofRow ⟨["id", "level"], [.integer 7, .integer 300]⟩ slots = .ok xs := by
  have hok := extract_of_errors_eq_nil
    (show (Extraction.findings lampDeclarations).errors = [] by decide +kernel)
  obtain ⟨m, hm, f, hf, hcolumn, htype, hdefault, hcell, hid⟩ : ∃ m ∈ (Extraction.register
      (Extraction.findings lampDeclarations).result.1
      (Extraction.findings lampDeclarations).result.2).models.values, ∃ f ∈ m.fields,
      f.columnName = "level" ∧ f.declaredType = "Option<u8>" ∧ f.defaultValue = some (.integer 300) ∧
        f.defaultCell? = some (.integer 300) ∧ ∀ g ∈ m.fields, g ≠ f → g.slot? = some lampKey := by
    decide +kernel
  obtain ⟨hdefaults, slots, hslots, hrows⟩ := defaults_read_iff hok hm
  have hu8 : FieldType.ofDeclared? f.declaredType = some (.optional (.integer .u8)) := by
    rw [htype]
    decide +kernel
  have hoverflow : f.DefaultOverflows .u8 300 := ⟨_, hu8, rfl, hdefault, by decide⟩
  refine ⟨_, m, hok, hm, ⟨f, hf, hcell, ?_⟩, slots, hslots, ?_⟩
  · obtain ⟨t, ht, -, hfault⟩ := hdefaults f hf _ hcell
    exact ⟨t, ht, hcolumn ▸ hfault .u8 300 hoverflow⟩
  · rw [hrows ⟨["id", "level"], [.integer 7, .integer 300]⟩ (· = f) ?_ ?_]
    · exact fun hfits => hfits f hf rfl ⟨.u8, 300, hoverflow⟩
    · rintro g - rfl
      exact ⟨_, hcell, by rw [hcolumn]; rfl⟩
    · intro g hg hne s hs
      rw [hid g hg hne] at hs
      obtain rfl := Option.some.inj hs
      exact ⟨⟨7, by decide⟩, rfl⟩

end TypedTables

import TypedTables.Proofs.Decimal.Nearest
import TypedTables.Proofs.Extraction.Field
/-!
# TypedTables — reading what was written

A value that is converted to a cell is read back from it. Integers fit the
cell because no type is wider than one, and a real of the narrow format comes
back because the wide one holds it exactly. The values left out are NaNs, and
a cell may not stand both for no value and for one: so the optional type
around a type that takes every cell is left out too, as no field has it.

A cell that is read need not be the one that is written back: a whole number may
be read as a real. But what is written back is read as the same value, by every
type, so a cell changes once at most.
-/

namespace TypedTables

/-! ## Integers -/

namespace IntegerType

/-- No integer type reaches further than a cell. -/
theorem bounds_le (t : IntegerType) : -2 ^ 63 ≤ t.least ∧ t.greatest < 2 ^ 63 := by
  cases t <;> decide

theorem toInt_ofInt {t : IntegerType} {n : Int} (h : t.Holds n) : (Int64.ofInt n).toInt = n := by
  obtain ⟨hleast, hgreatest⟩ := t.bounds_le
  obtain ⟨hlow, hhigh⟩ := h
  exact Int64.toInt_ofInt_of_le (by omega) (by omega)

end IntegerType

/-! ## Scalar types -/

namespace ScalarType

variable {t : ScalarType} {column : String}

/-- Whether a value is a real that is not a number. -/
def isNaN : (t : ScalarType) → t.Carrier → Bool
  | .f32, x => Single.isNaN x
  | .f64, x => Double.isNaN x
  | _, _ => false

/-- **A cell is read as the value it was made of.** -/
theorem ofValue_toValue (column : String) {x : t.Carrier} (h : t.isNaN x = false) :
    t.ofValue column (t.toValue x) = .ok x := by
  cases t with
  | integer t =>
    obtain ⟨n, hn⟩ := x
    have hint : (Int64.ofInt n).toInt = n := t.toInt_ofInt hn
    have hholds : t.Holds (Int64.ofInt n).toInt := by rwa [hint]
    have hread : ofValue column (.integer t) (.integer (Int64.ofInt n)) = .ok ⟨_, hholds⟩ := dif_pos hholds
    exact hread.trans (congrArg Except.ok (Subtype.ext hint))
  | bool => cases x <;> rfl
  | f32 =>
    have hkept : (Single.toDouble x).toSingle = x := Single.toSingle_toDouble h
    simp only [toValue, ofValue, hkept]
  | f64 => rfl
  | text => rfl
  | bytes => rfl
  | uri => rfl
  | any => rfl

/-- The storage classes of the cells that a type is read from. -/
def classes : ScalarType → List StorageClass
  | .integer _ | .bool => [.integer]
  | .f32 | .f64 => [.real, .integer]
  | .text | .uri => [.text]
  | .bytes => [.blob]
  | .any => [.null, .integer, .real, .text, .blob]

theorem ofValue_integer (column : String) (t : IntegerType) (n : Int64) :
    (integer t).ofValue column (.integer n) =
      if h : t.Holds n.toInt then .ok ⟨n.toInt, h⟩ else .error (.outOfRange column t n) := rfl

/-- **An integer type takes the integers in its range**, and refuses each other one
for what it is. -/
theorem ofValue_integer_iff (column : String) (t : IntegerType) (n : Int64) :
    ((∃ x : (integer t).Carrier, (integer t).ofValue column (.integer n) = .ok x ∧ x.val = n.toInt) ↔
        t.Holds n.toInt) ∧
      ((integer t).ofValue column (.integer n) = .error (.outOfRange column t n) ↔ ¬ t.Holds n.toInt) := by
  rw [ofValue_integer]
  by_cases h : t.Holds n.toInt
  · rw [dif_pos h]
    exact ⟨iff_of_true ⟨⟨n.toInt, h⟩, rfl, rfl⟩ h, iff_of_false (nomatch ·) (not_not_intro h)⟩
  · rw [dif_neg h]
    exact ⟨iff_of_false (fun ⟨_, hread, _⟩ => nomatch hread) h, iff_of_true rfl h⟩

/-- **A cell of another storage class is refused for its class**, and no other cell
is. -/
theorem ofValue_eq_typeMismatch_iff (column : String) (t : ScalarType) (v : Value) :
    t.ofValue column v = .error (.typeMismatch column t v.storageClass) ↔ v.storageClass ∉ t.classes := by
  cases t with
  | integer t =>
    cases v with
    | integer n =>
      refine iff_of_false (fun hread => ?_) (not_not_intro List.mem_cons_self)
      rw [ofValue_integer] at hread
      split at hread <;> nomatch hread
    | _ => simp [ofValue, classes, Value.storageClass]
  | _ => cases v <;> simp [ofValue, classes, Value.storageClass]

/-- **What was read is written so that it is read again**, NaNs included: a number
that was narrowed comes back from the wide format. -/
theorem ofValue_toValue_of_ofValue {v : Value} {x : t.Carrier} (h : t.ofValue column v = .ok x)
    (other : String) : t.ofValue other (t.toValue x) = .ok x := by
  cases t with
  | f32 =>
    have hnarrowed : ∃ d : Double, d.toSingle = x := by
      cases v with
      | real d => exact ⟨d, Except.ok.inj h⟩
      | integer n => exact ⟨_, Except.ok.inj h⟩
      | _ => nomatch h
    obtain ⟨d, rfl⟩ := hnarrowed
    exact congrArg Except.ok d.toSingle_toDouble_toSingle
  | f64 => rfl
  | _ => exact ofValue_toValue other rfl

/-- A value of a type that can be declared is never stored as an empty cell. -/
theorem toValue_ne_null (ht : t ≠ .any) (x : t.Carrier) : t.toValue x ≠ .null := by
  cases t with
  | any => exact absurd rfl ht
  | _ => exact Value.noConfusion

/-- Zero is what a value is at first, if it is stored as zero. -/
theorem eq_initial (ht : t ≠ .any) {x : t.Carrier} (h : t.toValue x = .integer 0) : x = t.initial := by
  have hnan : t.isNaN x = false ∧ t.isNaN t.initial = false := by
    cases t with
    | f32 => cases h
    | f64 => cases h
    | _ => exact ⟨rfl, rfl⟩
  have hzero : t.toValue t.initial = .integer 0 := by
    cases t with
    | any => exact absurd rfl ht
    | integer t => rfl
    | bool => rfl
    | _ => cases h
  have hread := ofValue_toValue "" hnan.1
  rw [h, ← hzero, ofValue_toValue "" hnan.2] at hread
  exact (Except.ok.inj hread).symm

end ScalarType

/-! ## Declared types -/

namespace FieldType

variable {t : FieldType}

/-- The type without an optional wrapper. -/
def scalar : FieldType → ScalarType
  | .required t => t
  | .optional t => t

/-- Whether a value is, or holds, a real that is not a number. -/
def isNaN : (t : FieldType) → t.Carrier → Bool
  | .required t, x => t.isNaN x
  | .optional _, none => false
  | .optional t, some x => t.isNaN x

/-- Whether a value is there though it need not be, and is stored as zero. -/
def isOptionalZero : (t : FieldType) → t.Carrier → Bool
  | .required _, _ => false
  | .optional _, none => false
  | .optional t, some x => t.toValue x == .integer 0

theorem ofValue_of_ne_null {t : ScalarType} (column : String) {v : Value} (h : v ≠ .null) :
    ofValue column (.optional t) v = (t.ofValue column v).map some := by
  cases v with
  | null => exact absurd rfl h
  | _ => rfl

/-- **A cell is read as the value it was made of**, and an empty one as none. -/
theorem ofValue_toValue (column : String) (ht : t.scalar ≠ .any) {x : t.Carrier} (h : t.isNaN x = false) :
    t.ofValue column (t.toValue x) = .ok x := by
  cases t with
  | required t => exact ScalarType.ofValue_toValue column h
  | optional t =>
    cases x with
    | none => rfl
    | some x =>
      have hcell : t.toValue x ≠ .null := ScalarType.toValue_ne_null ht x
      have hread := ScalarType.ofValue_toValue (t := t) column h
      show ofValue column (.optional t) (t.toValue x) = .ok (some x)
      rw [ofValue_of_ne_null column hcell, hread]
      rfl

/-- An optional type reads an empty cell as no value, and no other cell. -/
theorem ofValue_eq_none_iff (column : String) (t : ScalarType) (v : Value) :
    ofValue column (.optional t) v = .ok none ↔ v = .null := by
  refine ⟨fun hread => ?_, fun hnull => hnull ▸ rfl⟩
  by_contra hne
  rw [ofValue_of_ne_null column hne] at hread
  rcases hvalue : t.ofValue column v with e | x <;> rw [hvalue] at hread <;> nomatch hread

/-- **What was read is written so that it is read again**, by optional types too: a
cell that is not empty is not written back as an empty one. -/
theorem ofValue_toValue_of_ofValue {column : String} {v : Value} {x : t.Carrier} (h : t.ofValue column v = .ok x)
    (other : String) : t.ofValue other (t.toValue x) = .ok x := by
  cases t with
  | required t => exact ScalarType.ofValue_toValue_of_ofValue h other
  | optional t =>
    by_cases hnull : v = .null
    · subst hnull
      obtain rfl : none = x := Except.ok.inj h
      rfl
    · rw [ofValue_of_ne_null column hnull] at h
      rcases hread : t.ofValue column v with e | y
      · rw [hread] at h
        nomatch h
      · rw [hread] at h
        obtain rfl : some y = x := Except.ok.inj h
        -- a type of any value writes back what it read, which was not empty
        have hcell : t.toValue y ≠ .null := by
          by_cases ht : t = .any
          · subst ht
            obtain rfl : v = y := Except.ok.inj hread
            exact hnull
          · exact ScalarType.toValue_ne_null ht y
        show ofValue other (.optional t) (t.toValue y) = .ok (some y)
        rw [ofValue_of_ne_null other hcell, ScalarType.ofValue_toValue_of_ofValue hread other]
        rfl

/-- **The normal form of a cell**: what is written for the value that is read from
it. -/
def normalForm (column : String) (t : FieldType) (v : Value) : Except MappingError Value :=
  (t.ofValue column v).map t.toValue

/-- **A normal form is its own normal form.** -/
theorem normalForm_idem {column : String} {v w : Value} (h : t.normalForm column v = .ok w) (other : String) :
    t.normalForm other w = .ok w := by
  unfold normalForm at h
  rcases hread : t.ofValue column v with e | x
  · rw [hread] at h
    nomatch h
  · rw [hread] at h
    obtain rfl : t.toValue x = w := Except.ok.inj h
    rw [normalForm, ofValue_toValue_of_ofValue hread other]
    rfl

/-- Only the reals have values that are not numbers. -/
theorem isNaN_eq_false (ht : t.scalar ∉ [.f32, .f64]) (x : t.Carrier) : t.isNaN x = false := by
  have hscalar : ∀ {t : ScalarType}, t ∉ [.f32, .f64] → ∀ x : t.Carrier, t.isNaN x = false := by
    intro t ht x
    cases t with
    | f32 => exact absurd (by decide) ht
    | f64 => exact absurd (by decide) ht
    | _ => rfl
  cases t with
  | required t => exact hscalar ht x
  | optional t =>
    cases x with
    | none => rfl
    | some x => exact hscalar ht x

/-- A value that is stored as an empty cell is none. -/
theorem eq_initial_of_null (ht : t.scalar ≠ .any) {x : t.Carrier} (h : t.toValue x = .null) :
    x = t.initial := by
  cases t with
  | required t => exact absurd h (ScalarType.toValue_ne_null ht x)
  | optional t =>
    cases x with
    | none => rfl
    | some x => exact absurd h (ScalarType.toValue_ne_null ht x)

/-- A value that is stored as zero is the first one, unless it need not be
there. -/
theorem eq_initial_iff (ht : t.scalar ≠ .any) {x : t.Carrier} (h : t.toValue x = .integer 0) :
    t.initial = x ↔ t.isOptionalZero x = false := by
  cases t with
  | required t => exact ⟨fun _ => rfl, fun _ => (ScalarType.eq_initial ht h).symm⟩
  | optional t =>
    cases x with
    | none => cases h
    | some x =>
      have hzero : isOptionalZero (.optional t) (some x) = true := beq_iff_eq.2 h
      rw [hzero]
      constructor
      · intro hnone
        cases hnone
      · intro hfalse
        cases hfalse

theorem isOptionalZero_of_ne {x : t.Carrier} (h : t.toValue x ≠ .integer 0) :
    t.isOptionalZero x = false := by
  cases t with
  | required t => rfl
  | optional t =>
    cases x with
    | none => rfl
    | some x => exact beq_false_of_ne h

/-! ## Spellings -/

theorem scalar_ne_any_of_ofDeclared? {s : String} {t : ScalarType} (h : ScalarType.ofDeclared? s = some t) :
    t ≠ .any := by
  rintro rfl
  unfold ScalarType.ofDeclared? at h
  split at h
  · cases h
  · split at h
    · cases h
    case h_2 hnot => exact hnot h

/-- **Every field has a type that its values can be of**. It is not the one that
takes every cell, and belongs into the column of the field. -/
theorem exists_ofDeclared? {semanticType : SemanticType} {spelling : String} {nullable : Bool}
    (h : Field.IsTyped semanticType spelling nullable) :
    ∃ t, ofDeclared? spelling = some t ∧ t.scalar ≠ .any ∧
      ∃ declared, t.scalar.semanticType? = some declared ∧ declared.affinity = semanticType.affinity := by
  obtain ⟨base, declared, hspelling, hdeclared, haffinity⟩ := h.affinity
  obtain ⟨scalar, hscalar, hmeaning⟩ := Option.bind_eq_some_iff.1 hdeclared
  have hne := scalar_ne_any_of_ofDeclared? hscalar
  have hsplit : splitSpelling spelling = (base, nullable) := by
    rcases hs : splitSpelling spelling with ⟨base', nullable'⟩
    obtain ⟨hspelling', hnullable'⟩ := splitSpelling_eq hs
    obtain rfl : nullable' = nullable := Bool.eq_iff_iff.2 (hnullable'.trans h.nullable_iff.symm)
    rw [hspelling] at hspelling'
    cases nullable' with
    | false => rw [show base' = base from hspelling'.symm]
    | true =>
      have hinside := insideOptional?_optionalName base
      rw [show optionalName base = optionalName base' from hspelling', insideOptional?_optionalName] at hinside
      rw [Option.some.inj hinside]
  cases nullable with
  | false =>
    exact ⟨.required scalar, by simp [ofDeclared?, hsplit, hscalar], hne, declared, hmeaning, haffinity⟩
  | true =>
    exact ⟨.optional scalar, by simp [ofDeclared?, hsplit, hscalar], hne, declared, hmeaning, haffinity⟩

end FieldType

/-- **Conversions lose nothing, and settle at once.** A value of a type that is
neither a real nor any cell is read from the cell that it is written to. An integer
type takes the integers in its range; of all others it says that they are out of it,
and every type says of a cell of another storage class that it cannot be converted.
An empty cell is no value for the optional types alone, which read all other cells
as the types inside them do. What a cell is written back as is read again, by every
type, and written back as it is. -/
theorem conversions_are_lossless (column : String) :
    (∀ t : FieldType, t.scalar ∉ [.f32, .f64, .any] → ∀ x : t.Carrier, t.ofValue column (t.toValue x) = .ok x) ∧
      (∀ (t : IntegerType) (n : Int64),
        ((∃ x : (ScalarType.integer t).Carrier,
            (ScalarType.integer t).ofValue column (.integer n) = .ok x ∧ x.val = n.toInt) ↔ t.Holds n.toInt) ∧
          ((ScalarType.integer t).ofValue column (.integer n) = .error (.outOfRange column t n) ↔
            ¬ t.Holds n.toInt)) ∧
      (∀ (t : ScalarType) (v : Value),
        t.ofValue column v = .error (.typeMismatch column t v.storageClass) ↔ v.storageClass ∉ t.classes) ∧
      (∀ (t : ScalarType) (v : Value),
        (FieldType.ofValue column (.optional t) v = .ok none ↔ v = .null) ∧
          (v ≠ .null → FieldType.ofValue column (.optional t) v = (t.ofValue column v).map some)) ∧
      ∀ (t : FieldType) (v w : Value), t.normalForm column v = .ok w → t.normalForm column w = .ok w := by
  refine ⟨fun t ht x => ?_, ScalarType.ofValue_integer_iff column, ScalarType.ofValue_eq_typeMismatch_iff column,
    fun t v => ⟨FieldType.ofValue_eq_none_iff column t v, FieldType.ofValue_of_ne_null column⟩,
    fun t v w h => FieldType.normalForm_idem h column⟩
  simp only [List.mem_cons, List.not_mem_nil, or_false, not_or] at ht
  have hreal : t.scalar ∉ [.f32, .f64] := by simp [ht.1, ht.2.1]
  exact FieldType.ofValue_toValue column ht.2.2 (FieldType.isNaN_eq_false hreal x)

/-- A NaN that is not of the usual kind becomes one when it is read as a number of
the narrow format, and stays that one. -/
theorem conversions_are_lossless_bounds :
    FieldType.ofValue "level" (.optional (.integer .i8)) (.integer (-128)) = .ok (some ⟨-128, by decide⟩) ∧
      (ScalarType.integer .u32).ofValue "level" (.integer 4294967296) =
        .error (.outOfRange "level" .u32 4294967296) ∧
      ScalarType.ofValue "level" .bool .null = .error (.typeMismatch "level" .bool .null) ∧
      FieldType.ofValue "level" (.optional .bool) (.integer (-1)) = .ok (some true) ∧
      FieldType.normalForm "level" (.required .f32) (.real ⟨0x7ff0_0000_0000_0001⟩) =
        .ok (.real ⟨0x7ff8_0000_0000_0000⟩) ∧
      FieldType.normalForm "level" (.required .f32) (.real ⟨0x7ff8_0000_0000_0000⟩) =
        .ok (.real ⟨0x7ff8_0000_0000_0000⟩) := by
  obtain ⟨hback, hrange, hclass, hoptional, hsettled⟩ := conversions_are_lossless "level"
  have hnan : FieldType.normalForm "level" (.required .f32) (.real ⟨0x7ff0_0000_0000_0001⟩) =
      .ok (.real ⟨0x7ff8_0000_0000_0000⟩) := by
    decide +kernel
  have hleast := hback (.optional (.integer .i8)) (by decide) (some ⟨-128, by decide⟩)
  have hcell : FieldType.toValue (.optional (.integer .i8)) (some ⟨-128, by decide⟩) = .integer (-128) := by decide
  rw [hcell] at hleast
  have hflag := (hoptional .bool (.integer (-1))).2 (by decide)
  exact ⟨hleast, (hrange .u32 4294967296).2.2 (by decide), (hclass .bool .null).2 (by decide), hflag, hnan,
    hsettled (.required .f32) _ _ hnan⟩

end TypedTables

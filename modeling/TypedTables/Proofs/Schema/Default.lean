import TypedTables.Proofs.Database.Reading
import TypedTables.Proofs.Decimal.Shortest
import TypedTables.Proofs.Schema.Grammar
/-!
# TypedTables — default literals

A default is written as a literal that the engine reads as one: a number,
perhaps behind a sign, or a quoted text. Only a text with a character without a
number breaks the statement it stands in. Every default that fits its column is
such a literal, and it is what the literal means: the same text, or the same
number.
-/

namespace TypedTables

open Token (Breaks Spells IsNumeral joined)

variable {b : List Char} {r : Option (List TokenKind)} {ks : List TokenKind}

/-- The value of a number without a sign. -/
def Token.numberOf (w : List Char) : Value := ((Token.readNumber w).map Prod.fst).getD .null

/-- The tokens of a number that may have a sign. -/
def Token.numberKinds : List Char → List TokenKind
  | '-' :: w => [.symbol "-", .literal (Token.numberOf w)]
  | w => [.literal (Token.numberOf w)]

/-! ## Numbers as they are written -/

theorem repr_ne_nil {n : Nat} : n.repr.toList ≠ [] := by
  rw [Nat.toList_repr]
  exact Nat.toDigits_ne_nil

theorem isNumeral_repr (n : Nat) : IsNumeral n.repr.toList :=
  ⟨n.repr.toList, [], repr_ne_nil, by simpa using isDigit_of_mem_repr, .inl ⟨by simp, rfl⟩⟩

/-- A decimal that is written out has a digit before its point. -/
theorem RealLayout.isNumeral_positional (d : Decimal) : IsNumeral (positional d).toList := by
  have hdigits := @isDigit_of_mem_repr d.coefficient
  unfold positional
  split
  · -- the point stands behind all digits
    rw [String.toList_ofList]
    refine ⟨(Nat.repr d.coefficient).toList ++ List.replicate d.exponent.toNat '0', ['0'], ?_, ?_, .inr (by simp)⟩
    · exact List.append_ne_nil_of_left_ne_nil repr_ne_nil _
    · intro c hc
      simp only [List.mem_append, List.mem_singleton] at hc
      rcases hc with (hc | hc) | rfl
      · exact hdigits c hc
      · exact isDigit_of_mem_zeros c hc
      · rfl
  · simp only []
    split
    -- among them
    case isTrue hlt =>
      rw [String.toList_ofList]
      refine ⟨_, _, ?_, ?_, .inr rfl⟩
      · rw [← List.length_pos_iff, List.length_take]
        omega
      · intro c hc
        rw [List.take_append_drop] at hc
        exact hdigits c hc
    -- in front of them and of zeros
    case isFalse =>
      rw [String.toList_ofList]
      refine ⟨['0'], _, by simp, ?_, .inr rfl⟩
      intro c hc
      simp only [List.singleton_append, List.mem_cons, List.mem_append] at hc
      rcases hc with rfl | hc | hc
      · rfl
      · exact isDigit_of_mem_zeros c hc
      · exact hdigits c hc

/-! ## Literals -/

namespace WrittenDefault

variable {d : WrittenDefault}

/-- The tokens of a literal. -/
def kinds : WrittenDefault → List TokenKind
  | number spelling => Token.numberKinds spelling.toList
  | text content => [.literal (.text content)]

/-- The tokens of a number are its digits, behind the sign if there is one. -/
theorem exists_kinds {spelling : String} (hd : (number spelling).IsSpelled) :
    ∃ w, IsNumeral w ∧ (spelling.toList = w ∧ (number spelling).kinds = [.literal (Token.numberOf w)] ∨
      spelling.toList = '-' :: w ∧ (number spelling).kinds = [.symbol "-", .literal (Token.numberOf w)]) := by
  obtain ⟨w, hw, hsql⟩ := hd
  refine ⟨w, hw, ?_⟩
  rw [kinds]
  rcases hsql with hsql | hsql <;> rw [hsql]
  · obtain ⟨c, rest, rfl, hc⟩ := hw.exists_cons
    refine .inl ⟨rfl, ?_⟩
    unfold Token.numberKinds
    split
    · exact absurd hc (by simp_all)
    · rfl
  · exact .inr ⟨rfl, rfl⟩

theorem sql_text (s : String) : (text s).sql.toList ++ b = '\x27' :: (Token.doubled s.toList ++ '\x27' :: b) := by
  simp [sql]

/-- Neither a number nor a quote is a blank. -/
theorem starts_sql (hd : d.IsSpelled) : Token.Starts (Token.cut (d.sql.toList ++ b)) := by
  cases d with
  | text s =>
    rw [sql_text, Token.cut_cons (by decide)]
    exact Token.starts_cons rfl (by decide) nofun
  | number spelling =>
    obtain ⟨w, hw, hsql⟩ := hd
    rcases hsql with hsql | hsql <;> rw [sql, hsql]
    · exact Token.starts_number hw
    · obtain ⟨c, rest, rfl, hc⟩ := hw.exists_cons
      rw [List.cons_append, Token.cut_cons (by decide)]
      refine Token.starts_cons rfl (by decide) fun _ hm => ?_
      obtain rfl : c = '-' := by simpa using Token.head?_of_head?_cut hm
      exact absurd hc (by decide)

/-- **A literal is written as its tokens**, unless it ends the text. -/
theorem spells (hd : d.IsSpelled) (hb : Breaks b) (h : Spells b r) :
    Spells (d.sql.toList ++ b) (joined d.endsText d.kinds r) := by
  cases d with
  | text s =>
    rw [sql_text]
    rcases hends : (text s).endsText with _ | _
    · have hs : ∀ c ∈ s.toList, c.toNat ≠ 0 := by simpa [endsText] using hends
      have hq := Spells.quoted hs hb h
      rw [String.ofList_toList] at hq
      exact hq
    · have hs : ∃ c ∈ s.toList, c.toNat = 0 := by simpa [endsText] using hends
      exact Spells.unclosed hs
  | number spelling =>
    obtain ⟨w, hw, hkinds⟩ := exists_kinds hd
    obtain ⟨v, hv, -⟩ := hw.exists_value
    have hnumber := Spells.number hw hv hb h
    have hvalue : Token.numberOf w = v := by rw [Token.numberOf, hv]; rfl
    rw [hvalue] at hkinds
    rw [sql, endsText]
    rcases hkinds with ⟨hsql, hkinds⟩ | ⟨hsql, hkinds⟩ <;> rw [hsql, hkinds]
    · exact hnumber
    · have hminus := Spells.minus hw hnumber
      rw [Option.map_map] at hminus
      exact hminus

/-- **The engine takes the literal for a default value.** -/
theorem reads (hd : d.IsSpelled) :
    SqlReader.Reads SqlReader.defaultValue (d.kinds ++ ks) ks True fun _ => True := by
  cases d with
  | text s => exact SqlReader.Reads.defaultValue_literal.mono fun _ _ => trivial
  | number spelling =>
    obtain ⟨w, hw, hkinds⟩ := exists_kinds hd
    obtain ⟨v, hv, hnumber⟩ := hw.exists_value
    have hvalue : Token.numberOf w = v := by rw [Token.numberOf, hv]; rfl
    rw [hvalue] at hkinds
    rcases hkinds with ⟨-, hkinds⟩ | ⟨-, hkinds⟩ <;> rw [hkinds]
    · exact SqlReader.Reads.defaultValue_literal.mono fun _ _ => trivial
    · exact SqlReader.Reads.defaultValue_negative hnumber

end WrittenDefault

/-! ## Defaults of columns -/

namespace DefaultValue

variable {d : DefaultValue} {t : SemanticType}

/-- The literal as it is written. -/
def written : DefaultValue → WrittenDefault
  | .text s => .text s
  | d => .number d.sql

theorem sql_eq (d : DefaultValue) : d.sql = d.written.sql := by
  cases d with
  | text s =>
    rw [← String.toList_inj]
    simp [sql, written, WrittenDefault.sql, doubleQuotes, Token.doubled]
  | bool _ | integer _ | real _ => rfl

theorem isFinite_of_fits {x : Double} (h : (real x).fits t = true) : x.isFinite = true := by
  cases t <;> first | exact h | nomatch h

/-- A finite real is written with digits and a point. -/
theorem sql_real {x : Double} (h : x.isFinite = true) : (real x).sql.toList =
    (RealLayout.sign x.isNegative).toList ++ (RealLayout.positional (x.shortest realLayout.tie)).toList := by
  have hnan : x.isNaN = false := by
    simp only [Double.isFinite, Double.isNaN, decide_eq_true_eq, decide_eq_false_iff_not] at h ⊢
    omega
  have hinfinite : x.isInfinite = false := by
    simp only [Double.isFinite, Double.isInfinite, decide_eq_true_eq, beq_eq_false_iff_ne] at h ⊢
    omega
  simp [sql, RealLayout.render, hnan, hinfinite, realLayout]

/-- A default that is no text is a number, perhaps with a sign. -/
theorem exists_numeral (hfits : d.fits t = true) (htext : ∀ s, d ≠ .text s) :
    ∃ w, IsNumeral w ∧ (d.sql.toList = w ∨ d.sql.toList = '-' :: w) := by
  cases d with
  | bool b =>
    cases b
    · exact ⟨['0'], isNumeral_repr 0, .inl rfl⟩
    · exact ⟨['1'], isNumeral_repr 1, .inl rfl⟩
  | integer n =>
    have hsql : (DefaultValue.integer n).sql = toString n.toInt := rfl
    rw [hsql]
    rcases n.toInt with m | m
    · exact ⟨m.repr.toList, isNumeral_repr m, .inl rfl⟩
    · exact ⟨(m + 1).repr.toList, isNumeral_repr (m + 1), .inr String.toList_append⟩
  | real x =>
    refine ⟨(RealLayout.positional (x.shortest realLayout.tie)).toList, RealLayout.isNumeral_positional _, ?_⟩
    rw [sql_real (isFinite_of_fits hfits)]
    cases x.isNegative
    · exact .inl rfl
    · exact .inr rfl
  | text s => exact absurd rfl (htext s)

/-- **A default that fits its column is a literal.** -/
theorem isSpelled_written (hfits : d.fits t = true) : d.written.IsSpelled := by
  by_cases htext : ∃ s, d = .text s
  · obtain ⟨s, rfl⟩ := htext
    exact trivial
  · have hne : ∀ s, d ≠ .text s := fun s hs => htext ⟨s, hs⟩
    have hwritten : d.written = .number d.sql := by
      cases d <;> first | rfl | exact absurd rfl (hne _)
    rw [hwritten]
    exact exists_numeral hfits hne

end DefaultValue

/-! ## What literals mean -/

/-- **A literal means a default.** A text stands for itself, and a number is the
default in value: truth values are one and zero, and a real is the one that the
number rounds to, with the sign that zero has as well. -/
def WrittenDefault.Means : WrittenDefault → DefaultValue → Prop
  | .text s, .text t => s = t
  | .number w, .bool b => Decimal.signedAmount w.toList = if b then 1 else 0
  | .number w, .integer n => Decimal.signedAmount w.toList = n.toInt
  | .number w, .real x =>
    x.IsNearest (Decimal.signedAmount w.toList) ∧ (w.toList.head? = some '-' ↔ x.isNegative = true)
  | _, _ => False

theorem Token.IsNumeral.head?_ne {w : List Char} (hw : IsNumeral w) : w.head? ≠ some '-' := by
  obtain ⟨c, rest, rfl, hc⟩ := hw.exists_cons
  rintro ⟨⟩
  exact absurd hc (by decide)

theorem Token.IsNumeral.signedAmount_eq {w : List Char} (hw : IsNumeral w) :
    Decimal.signedAmount w = Decimal.amount w := by
  unfold Decimal.signedAmount
  split
  · exact absurd rfl hw.head?_ne
  · rfl

theorem amount_repr (n : Nat) : Decimal.amount n.repr.toList = n := by
  rw [Decimal.amount_of_isDigit isDigit_of_mem_repr, ofDigitChars_repr]

theorem signedAmount_toString (n : Int) : Decimal.signedAmount (toString n).toList = n := by
  rcases n with m | m
  · exact (isNumeral_repr m).signedAmount_eq.trans (amount_repr m)
  · have hsign : (toString (Int.negSucc m)).toList = '-' :: (m + 1).repr.toList := String.toList_append
    rw [hsign, Decimal.signedAmount, amount_repr, Int.cast_negSucc]

namespace DefaultValue

variable {d : DefaultValue} {t : SemanticType}

/-- **A default that fits its column is what its literal means.** -/
theorem means_written (hfits : d.fits t = true) : d.written.Means d := by
  cases d with
  | text s => exact rfl
  | bool b =>
    cases b
    · exact (signedAmount_toString 0).trans Int.cast_zero
    · exact (signedAmount_toString 1).trans Int.cast_one
  | integer n => exact signedAmount_toString n.toInt
  | real x =>
    have hfinite := isFinite_of_fits hfits
    have hnumeral := RealLayout.isNumeral_positional (x.shortest realLayout.tie)
    have hnearest := Double.isNearest_shortest hfinite realLayout.tie
    rw [← RealLayout.amount_positional] at hnearest
    show x.IsNearest (Decimal.signedAmount (real x).sql.toList) ∧ ((real x).sql.toList.head? = some '-' ↔ _)
    rw [sql_real hfinite]
    unfold Double.signed at hnearest
    cases hsign : x.isNegative <;> rw [hsign] at hnearest
    · refine ⟨?_, ?_⟩
      · exact hnumeral.signedAmount_eq ▸ hnearest
      · simpa [RealLayout.sign] using hnumeral.head?_ne
    · exact ⟨hnearest, by simp [RealLayout.sign]⟩

end DefaultValue

end TypedTables

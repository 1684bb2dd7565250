import Mathlib.Tactic.Common
import TypedTables.Document.Json.Printer
import TypedTables.Document.Json.Reader
import TypedTables.Proofs.Decimal.Digits
/-!
# TypedTables — scalars of JSON read back

A string is read back character by character, whatever was escaped in it. A
number is read up to what cannot be a part of it, so it is read in front of
whatever comes next as it is read alone.
-/

namespace TypedTables

namespace Json

variable {c : Char} {cs rest : List Char} {taken : List Char} {fuel : Nat}

/-! ## Strings -/

/-- A control character is written by its number, which has two digits. -/
theorem readUnicodeEscape_control (h : c.toNat < 32) :
    readUnicodeEscape ('0' :: '0' :: hexDigit (c.toNat / 16) :: hexDigit c.toNat :: cs) = some (c, cs) := by
  have hvalues : ∀ n < 32, hexValue? (hexDigit (n / 16)) = some (n / 16) ∧ hexValue? (hexDigit n) = some (n % 16) := by
    decide +kernel
  have hzero : hexValue? '0' = some 0 := by decide
  obtain ⟨hhigh, hlow⟩ := hvalues _ h
  have hnumber : readHex4 ('0' :: '0' :: hexDigit (c.toNat / 16) :: hexDigit c.toNat :: cs) = some (c.toNat, cs) := by
    have hsum : 4096 * 0 + 256 * 0 + 16 * (c.toNat / 16) + c.toNat % 16 = c.toNat := by omega
    simp only [readHex4, hzero, hhigh, hlow, Option.bind_eq_bind, Option.bind_some, Option.pure_def, hsum]
  have hlow : ¬(0xDC00 ≤ c.toNat) := by omega
  have hhigh : ¬(0xD800 ≤ c.toNat) := by omega
  simp [readUnicodeEscape, hnumber, hlow, hhigh]

/-- **A character is read as what it was**, escaped or not. -/
theorem readString_escapeChar :
    readString (fuel + 1) taken (escapeChar c ++ cs) = readString fuel (c :: taken) cs := by
  unfold escapeChar
  split
  · rfl
  · rfl
  · rfl
  · rfl
  · rfl
  -- two more characters are escaped by a letter, other control characters by their number
  case h_6 hquote hslash _ _ _ =>
    split
    case isTrue h =>
      obtain rfl : c = '\x08' := Char.toNat_inj.1 h
      rfl
    split
    case isTrue h =>
      obtain rfl : c = '\x0c' := Char.toNat_inj.1 h
      rfl
    split
    case isTrue h =>
      simp [readString, readEscape, readUnicodeEscape_control h]
    case isFalse h =>
      rw [List.singleton_append, readString]
      · rw [if_neg h]
      · exact hquote
      · exact hslash

/-- **A string is read as what it was.** -/
theorem readString_flatMap (s : List Char) (h : s.length < fuel) :
    readString fuel taken (s.flatMap escapeChar ++ '"' :: rest) = some (String.ofList (taken.reverse ++ s), rest) := by
  induction s generalizing fuel taken with
  | nil =>
    obtain ⟨fuel, rfl⟩ := Nat.exists_eq_add_one.2 h
    simp [readString]
  | cons c s ih =>
    obtain ⟨fuel, rfl⟩ := Nat.exists_eq_add_one.2 (Nat.zero_lt_of_lt h)
    rw [List.flatMap_cons, List.append_assoc, readString_escapeChar, ih (Nat.lt_of_succ_lt_succ h),
      List.reverse_cons, List.append_assoc]
    rfl

/-! ## Numbers -/

/-- What ends a number that was read so far. -/
def IsEnd (rest : List Char) : Prop :=
  ∀ c ∈ rest.head?, Numeral.digit? c = none ∧ c ≠ '.' ∧ c ≠ 'e' ∧ c ≠ 'E'

variable {digits : List Nat} {negative : Bool} {d : Document}

theorem IsEnd.takeDigits_append (hend : IsEnd rest) (cs : List Char) :
    Numeral.takeDigits (cs ++ rest) = ((Numeral.takeDigits cs).1, (Numeral.takeDigits cs).2 ++ rest) :=
  Numeral.takeDigits_append fun c hc => (hend c hc).1

theorem readFraction_of_ne (h : ∀ c ∈ cs.head?, c ≠ '.') : readFraction cs = some ([], false, cs) := by
  unfold readFraction
  split
  · exact absurd rfl (h '.' rfl)
  · rfl

theorem readExponent_of_ne (h : ∀ c ∈ cs.head?, c ≠ 'e' ∧ c ≠ 'E') : readExponent cs = some (0, false, cs) := by
  unfold readExponent
  split
  · exact absurd rfl (h 'e' rfl).1
  · exact absurd rfl (h 'E' rfl).2
  · rfl

theorem readFraction_append {hasPoint : Bool} {left : List Char} (hend : IsEnd rest)
    (h : readFraction cs = some (digits, hasPoint, left)) :
    readFraction (cs ++ rest) = some (digits, hasPoint, left ++ rest) := by
  by_cases hpoint : ∀ c ∈ cs.head?, c ≠ '.'
  · rw [readFraction_of_ne hpoint] at h
    cases h
    refine readFraction_of_ne fun c hc => ?_
    rcases cs with _ | ⟨c', cs⟩
    · exact (hend c hc).2.1
    · exact hpoint c hc
  · obtain ⟨cs, rfl⟩ : ∃ cs', cs = '.' :: cs' := by
      rcases cs with _ | ⟨c, cs⟩
      · exact absurd nofun hpoint
      · obtain rfl : c = '.' := by simpa using hpoint
        exact ⟨cs, rfl⟩
    simp only [readFraction] at h
    simp only [List.cons_append, readFraction, hend.takeDigits_append]
    split at h
    case isTrue => cases h
    case isFalse hsome =>
      cases h
      rw [if_neg hsome]

/-- Behind the mark of an exponent there are a sign or none, and digits. -/
theorem exists_readExponent (c : Char) (cs : List Char) : ∃ (negative : Bool) (left : List Char), ∀ rest,
    readExponent ('e' :: c :: (cs ++ rest)) =
      if (Numeral.takeDigits (left ++ rest)).1.isEmpty then none
      else
        let n : Int := Numeral.ofDigits (Numeral.takeDigits (left ++ rest)).1
        some (if negative then -n else n, true, (Numeral.takeDigits (left ++ rest)).2) := by
  by_cases hplus : c = '+'
  · subst hplus
    exact ⟨false, cs, fun _ => rfl⟩
  by_cases hminus : c = '-'
  · subst hminus
    exact ⟨true, cs, fun _ => rfl⟩
  refine ⟨false, c :: cs, fun rest => ?_⟩
  simp only [readExponent]
  split
  case h_1 hsign => exact absurd (List.cons.inj hsign).1 hplus
  case h_2 hsign => exact absurd (List.cons.inj hsign).1 hminus
  case h_3 => rfl

theorem readExponent_append {exponent : Int} {hasExponent : Bool} {left : List Char} (hend : IsEnd rest)
    (h : readExponent cs = some (exponent, hasExponent, left)) :
    readExponent (cs ++ rest) = some (exponent, hasExponent, left ++ rest) := by
  by_cases hmark : ∀ c ∈ cs.head?, c ≠ 'e' ∧ c ≠ 'E'
  · -- no mark, no exponent: what ends a number is no mark either
    rw [readExponent_of_ne hmark] at h
    cases h
    refine readExponent_of_ne fun c hc => ?_
    rcases cs with _ | ⟨c', cs⟩
    · exact (hend c hc).2.2
    · exact hmark c hc
  · obtain ⟨c, cs, rfl, hc⟩ : ∃ c cs', cs = c :: cs' ∧ (c = 'e' ∨ c = 'E') := by
      rcases cs with _ | ⟨c, cs⟩
      · exact absurd nofun hmark
      · exact ⟨c, cs, rfl, by simpa [or_iff_not_imp_left] using hmark⟩
    -- both letters mark the same exponent
    have hsame (cs : List Char) : readExponent (c :: cs) = readExponent ('e' :: cs) := by
      rcases hc with rfl | rfl <;> rfl
    rw [hsame] at h
    rw [List.cons_append, hsame]
    rcases cs with _ | ⟨x, cs⟩
    · cases h
    · obtain ⟨negative, digits, hread⟩ := exists_readExponent x cs
      have hread' := hread []
      rw [List.append_nil, List.append_nil] at hread'
      rw [hread'] at h
      rw [List.cons_append, hread, hend.takeDigits_append]
      split at h
      case isTrue => cases h
      case isFalse hsome =>
        cases h
        rw [if_neg hsome]

/-- **A number is read in front of other things as it is read alone.** -/
theorem readNumber_append {left : List Char} (hend : IsEnd rest) (h : readNumber negative cs = some (d, left)) :
    readNumber negative (cs ++ rest) = some (d, left ++ rest) := by
  simp only [readNumber, hend.takeDigits_append] at h ⊢
  split at h
  · cases h
  case isFalse hwhole =>
    rw [if_neg hwhole]
    simp only [Option.bind_eq_bind, Option.bind_eq_some_iff, Prod.exists] at h
    obtain ⟨fraction, hasPoint, afterFraction, hfraction, exponent, hasExponent, afterExponent, hexponent, document,
      hdocument, hresult⟩ := h
    obtain ⟨rfl, rfl⟩ := Prod.mk.inj (Option.some.inj hresult)
    simp only [readFraction_append hend hfraction, readExponent_append hend hexponent, hdocument, Option.bind_eq_bind,
      Option.bind_some]
    rfl

/-! ## Whole numbers -/

theorem readNumber_toDigits (n : Nat) : readNumber negative (Nat.toDigits 10 n) =
    (numberDocument ⟨negative, Numeral.digitsOf (Nat.toDigits 10 n), [], 0⟩ true).map (·, []) := by
  have hdigits : ∀ c ∈ Nat.toDigits 10 n, c.isDigit = true := fun _ =>
    Nat.isDigit_of_mem_toDigits (by decide) (by decide)
  have hsome : (Numeral.digitsOf (Nat.toDigits 10 n)).isEmpty = false := by simp [Numeral.digitsOf]
  have hzero : (decide ((Numeral.digitsOf (Nat.toDigits 10 n)).length > 1) &&
      (Numeral.digitsOf (Nat.toDigits 10 n)).head? == some 0) = false := by
    by_cases hn : 10 ≤ n
    · simp [Numeral.head_toDigits hn]
    · simp [Numeral.digitsOf, Nat.toDigits_of_lt_base (Nat.lt_of_not_le hn)]
  simp only [readNumber, Numeral.takeDigits_of_isDigit hdigits, hsome, hzero]
  rcases hnumber : numberDocument ⟨negative, Numeral.digitsOf (Nat.toDigits 10 n), [], 0⟩ true with _ | document
  · simp [readFraction, readExponent, hnumber]
  · simp [readFraction, readExponent, hnumber]

theorem numberDocument_of_nonneg {digits : List Nat} (h : Numeral.ofDigits digits < UInt64.size) :
    numberDocument ⟨false, digits, [], 0⟩ true = some (.integer (Numeral.ofDigits digits)) := by
  rw [numberDocument]
  exact if_pos (by simpa using h)

theorem numberDocument_of_neg {digits : List Nat} (hpos : 0 < Numeral.ofDigits digits)
    (hleast : Int64.minValue.toInt ≤ -(Numeral.ofDigits digits : Int)) :
    numberDocument ⟨true, digits, [], 0⟩ true = some (.integer (-(Numeral.ofDigits digits : Int))) := by
  rw [numberDocument]
  refine (if_neg (by simp)).trans (if_pos ?_)
  simp only [Bool.and_self, hpos, decide_true, hleast]

/-- **A whole number that fits a word is read as an integer.** -/
theorem readNumber_integer (n : Int) (hleast : Int64.minValue.toInt ≤ n) (hgreatest : n < UInt64.size) :
    readNumber (decide (n < 0)) (Nat.toDigits 10 n.natAbs) = some (.integer n, []) := by
  have hmagnitude : Numeral.ofDigits (Numeral.digitsOf (Nat.toDigits 10 n.natAbs)) = n.natAbs :=
    Numeral.ofDigits_digitsOf n.natAbs
  rw [readNumber_toDigits]
  by_cases hn : n < 0
  · have hvalue : -(n.natAbs : Int) = n := by omega
    rw [decide_eq_true hn, numberDocument_of_neg (by omega) (by rwa [hmagnitude, hvalue]), hmagnitude, hvalue]
    rfl
  · have hvalue : (n.natAbs : Int) = n := by omega
    rw [decide_eq_false hn, numberDocument_of_nonneg (by omega), hmagnitude, hvalue]
    rfl

end Json

/-! ## Reals in JSON

A finite real is written with a point or an exponent, and a number with either
is never read as an integer. So all that has to be known of a real is that the
digits chosen for it stand for it: then it is read back as it was. -/

/-- The real that a number stands for. -/
def Document.number? : Document → Option Double
  | .integer n => some (Double.ofInt n)
  | .real x => some x
  | _ => none

namespace Json

variable {c : Char} {cs left : List Char} {negative : Bool} {fuel : Nat} {n : Int} {x : Double} {text : String}

/-! ### What integers are read from -/

/-- The characters of a whole number, and blanks around it. -/
def IsWhole (c : Char) : Prop := c.isDigit = true ∨ c = '-' ∨ c = ' ' ∨ c = '\n' ∨ c = '\r' ∨ c = '\t'

theorem isWhole_or_mem_takeDigits (h : c ∈ cs) : IsWhole c ∨ c ∈ (Numeral.takeDigits cs).2 := by
  induction cs with
  | nil => cases h
  | cons first cs ih =>
    rw [Numeral.takeDigits, Numeral.digit?]
    by_cases hfirst : first.isDigit = true
    · rw [if_pos hfirst]
      rcases List.mem_cons.1 h with rfl | h
      · exact .inl (.inl hfirst)
      · exact ih h
    · rw [if_neg hfirst]
      exact .inr h

theorem isWhole_or_mem_skipBlanks (h : c ∈ cs) : IsWhole c ∨ c ∈ skipBlanks cs := by
  induction cs with
  | nil => cases h
  | cons first cs ih =>
    rw [skipBlanks]
    split
    case isFalse => exact .inr h
    case isTrue hblank =>
      rcases List.mem_cons.1 h with rfl | h
      · simp only [Bool.or_eq_true, beq_iff_eq] at hblank
        refine .inl (.inr (.inr ?_))
        tauto
      · exact ih h

theorem readFraction_whole {digits : List Nat} (h : readFraction cs = some (digits, false, left)) : left = cs := by
  unfold readFraction at h
  split at h
  case h_1 =>
    dsimp only at h
    split at h <;> simp at h
  case h_2 =>
    cases h
    rfl

theorem readExponent_whole {exponent : Int} (h : readExponent cs = some (exponent, false, left)) : left = cs := by
  unfold readExponent at h
  split at h
  case h_3 =>
    cases h
    rfl
  all_goals
    dsimp only at h
    split at h <;> simp at h

theorem numberDocument_integer {numeral : Numeral} {isWhole : Bool}
    (h : numberDocument numeral isWhole = some (.integer n)) : isWhole = true := by
  cases isWhole with
  | true => rfl
  | false =>
    obtain ⟨x, -, hx⟩ := Option.map_eq_some_iff.1 h
    cases hx

/-- **An integer ends where its digits end.** -/
theorem readNumber_left (h : readNumber negative cs = some (.integer n, left)) : left = (Numeral.takeDigits cs).2 := by
  simp only [readNumber] at h
  split at h
  · cases h
  simp only [Option.bind_eq_bind, Option.bind_eq_some_iff, Prod.exists] at h
  obtain ⟨fraction, hasPoint, afterFraction, hfraction, exponent, hasExponent, afterExponent, hexponent, document,
    hdocument, hresult⟩ := h
  obtain ⟨rfl, rfl⟩ := Prod.mk.inj (Option.some.inj hresult)
  have hwhole := numberDocument_integer hdocument
  simp only [Bool.and_eq_true, Bool.not_eq_true'] at hwhole
  obtain ⟨rfl, rfl⟩ := hwhole
  -- without a point and an exponent nothing is taken behind the digits
  exact (readExponent_whole hexponent).trans (readFraction_whole hfraction)

theorem readValue_left (h : readValue fuel cs = some (.integer n, left)) (hc : c ∈ cs) : IsWhole c ∨ c ∈ left := by
  rcases fuel with _ | fuel
  · cases h
  rcases isWhole_or_mem_skipBlanks hc with hc | hc
  · exact .inl hc
  rw [readValue] at h
  split at h
  case h_7 heq =>
    rw [heq] at hc
    rcases List.mem_cons.1 hc with rfl | hc
    · exact .inl (.inr (.inl rfl))
    · rw [readNumber_left h]
      exact isWhole_or_mem_takeDigits hc
  case h_8 =>
    rw [readNumber_left h]
    exact isWhole_or_mem_takeDigits hc
  case h_5 => split at h <;> simp at h
  case h_6 => split at h <;> simp at h
  all_goals simp at h

/-- **An integer is read from its digits alone.** -/
theorem isWhole_of_parse? (h : parse? text = some (.integer n)) (hc : c ∈ text.toList) : IsWhole c := by
  simp only [parse?, Option.bind_eq_bind, Option.bind_eq_some_iff, Prod.exists] at h
  obtain ⟨d, left, hread, hleft⟩ := h
  split at hleft
  case h_2 => cases hleft
  case h_1 hblank =>
    obtain rfl := Option.some.inj hleft
    -- what is left of the text is blank
    rcases readValue_left hread hc with hc | hc
    · exact hc
    · refine (isWhole_or_mem_skipBlanks hc).resolve_right fun hc => ?_
      rw [hblank] at hc
      cases hc

/-! ### What reals are written as -/

theorem mem_positional (d : Decimal) : '.' ∈ (RealLayout.positional d).toList := by
  unfold RealLayout.positional
  dsimp only
  split
  · simp
  split <;> simp

theorem mem_exponential (l : RealLayout) (d : Decimal) : 'e' ∈ (l.exponential d).toList := by
  simp [RealLayout.exponential]

/-- A finite real is written with a point or an exponent. -/
theorem exists_mark (h : x.isFinite = true) : ∃ c ∈ (realText x).toList, ¬IsWhole c := by
  have hnan : x.isNaN = false := by
    simp only [Double.isFinite, Double.isNaN, decide_eq_true_eq, decide_eq_false_iff_not] at h ⊢
    exact Nat.not_lt_of_gt h
  have hinfinite : x.isInfinite = false := by
    simp only [Double.isFinite, Double.isInfinite, decide_eq_true_eq, beq_eq_false_iff_ne] at h ⊢
    exact Nat.ne_of_lt h
  have hplain : realLayout.plain = some (-5, 15) := rfl
  rw [realText, if_pos h, RealLayout.render, hnan, hinfinite]
  simp only [Bool.false_eq_true, if_false, hplain, String.toList_append, List.mem_append]
  split
  case isTrue => exact ⟨'.', .inr (mem_positional _), by simp [IsWhole]⟩
  case isFalse => exact ⟨'e', .inr (mem_exponential _ _), by simp [IsWhole]⟩

/-- **A real that JSON can keep**: it is finite, and the number written for it
stands for it. -/
def IsKept (x : Double) : Prop := x.isFinite = true ∧ (parse? (realText x)).bind Document.number? = some x

instance (x : Double) : Decidable (IsKept x) := inferInstanceAs (Decidable (_ ∧ _))

/-- **A real is read as a real**, also where it looks like an integer. -/
theorem IsKept.parse?_realText (h : IsKept x) : parse? (realText x) = some (.real x) := by
  obtain ⟨hfinite, hnumber⟩ := h
  obtain ⟨d, hd, hx⟩ := Option.bind_eq_some_iff.1 hnumber
  cases d with
  | integer n =>
    -- an integer is read from digits alone, but there is a mark among these
    obtain ⟨c, hc, hmark⟩ := exists_mark hfinite
    exact absurd (isWhole_of_parse? hd hc) hmark
  | real y =>
    obtain rfl : y = x := Option.some.inj hx
    exact hd
  | _ => cases hx

end Json

end TypedTables

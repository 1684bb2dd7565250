import Mathlib.Algebra.Order.Field.Power
import Mathlib.Data.Nat.Cast.Order.Field
import Mathlib.Data.Rat.Cast.Order
import Mathlib.Tactic.FieldSimp
import Mathlib.Tactic.Linarith
import Mathlib.Tactic.Positivity
import Mathlib.Tactic.Ring
import TypedTables.Decimal.Binary
/-!
# TypedTables — rounding what needs no rounding

A number of a binary format is `m · 2^q` in one way, its canonical one, and
its bits are the code of that pair. Rounding a fraction that is such a number
gives the number's own bits: the guess at the exponent is the exponent itself
or the one below, and then the step that corrects it is taken.
-/

namespace TypedTables

namespace BinaryFormat

variable {f g : BinaryFormat} {num den m : Nat} {q : Int}

/-- The parts of a finite number, exponents being unbounded: the significand
has its leading bit unless the exponent is the least one. -/
structure IsCanonical (f : BinaryFormat) (m : Nat) (q : Int) : Prop where
  least_le : f.minExponent ≤ q
  lt_double : m < 2 * f.leadingBit
  leading : q = f.minExponent ∨ f.leadingBit ≤ m

/-- The fraction is the number `m · 2^q`. -/
def Represents (num den m : Nat) (q : Int) : Prop := (num : ℚ) = m * 2 ^ q * den

theorem leadingBit_pos (f : BinaryFormat) : 0 < f.leadingBit := Nat.two_pow_pos _

theorem two_pow_precision (hf : 0 < f.precision) : 2 ^ f.precision = 2 * f.leadingBit := by
  obtain ⟨p, hp⟩ := Nat.exists_eq_add_of_lt hf
  rw [leadingBit, hp, Nat.zero_add, Nat.add_sub_cancel, pow_succ, Nat.mul_comm]
  rfl

/-! ## Bits and parts -/

theorem isCanonical_decode (f : BinaryFormat) (bits : Nat) :
    f.IsCanonical (f.decode bits).1 (f.decode bits).2 := by
  have hfraction : bits % f.leadingBit < f.leadingBit := Nat.mod_lt _ f.leadingBit_pos
  unfold decode
  dsimp only
  by_cases hbiased : bits / f.leadingBit = 0
  · rw [if_pos hbiased]
    refine ⟨le_refl _, ?_, .inl rfl⟩
    dsimp only
    omega
  · rw [if_neg hbiased]
    have hone : (1 : Int) ≤ (bits / f.leadingBit : Nat) :=
      Int.ofNat_le.2 (Nat.one_le_iff_ne_zero.2 hbiased)
    refine ⟨?_, ?_, .inr (Nat.le_add_left _ _)⟩ <;> dsimp only <;> omega

theorem encode_decode (f : BinaryFormat) (bits : Nat) :
    f.encode (f.decode bits).1 (f.decode bits).2 = bits := by
  have hparts := Nat.div_add_mod' bits f.leadingBit
  unfold decode encode
  dsimp only
  by_cases hbiased : bits / f.leadingBit = 0
  · rw [if_pos hbiased]
    rw [hbiased] at hparts
    dsimp only
    rw [Int.sub_self, Int.toNat_zero]
    exact hparts
  · rw [if_neg hbiased]
    obtain ⟨e, he⟩ := Nat.exists_eq_succ_of_ne_zero hbiased
    rw [he] at hparts ⊢
    have hexponent : (f.minExponent + ((e.succ : Nat) : Int) - 1 - f.minExponent).toNat = e := by omega
    rw [Nat.succ_mul] at hparts
    dsimp only
    rw [hexponent]
    omega

/-- Zero has no bits but its sign. -/
theorem decode_fst_eq_zero (f : BinaryFormat) {bits : Nat} : (f.decode bits).1 = 0 ↔ bits = 0 := by
  have hpos := f.leadingBit_pos
  have hparts := Nat.div_add_mod' bits f.leadingBit
  unfold decode
  dsimp only
  by_cases hbiased : bits / f.leadingBit = 0
  · rw [if_pos hbiased]
    rw [hbiased, Nat.zero_mul, Nat.zero_add] at hparts
    dsimp only
    rw [hparts]
  · rw [if_neg hbiased]
    have hnot : bits ≠ 0 := by
      intro h
      exact hbiased (by rw [h, Nat.zero_div])
    dsimp only
    omega

theorem decode_encode (h : f.IsCanonical m q) : f.decode (f.encode m q) = (m, q) := by
  have hpos := f.leadingBit_pos
  obtain ⟨e, he⟩ := Int.eq_ofNat_of_zero_le (Int.sub_nonneg_of_le h.least_le)
  have hq : q = f.minExponent + e := by omega
  unfold decode encode
  rw [he, Int.toNat_natCast]
  rcases Nat.lt_or_ge m f.leadingBit with hlt | hge
  · -- no leading bit, so the exponent is the least one
    have hleast : q = f.minExponent := h.leading.resolve_right (by omega)
    have hzero : e = 0 := by omega
    rw [hzero, Nat.zero_mul, Nat.zero_add, Nat.div_eq_of_lt hlt, Nat.mod_eq_of_lt hlt, hleast]
    rfl
  · have hfraction : m - f.leadingBit < f.leadingBit := by
      have := h.lt_double
      omega
    have hcode : e * f.leadingBit + m = (m - f.leadingBit) + (e + 1) * f.leadingBit := by
      rw [Nat.succ_mul]
      omega
    have hbiased : (e * f.leadingBit + m) / f.leadingBit = e + 1 := by
      rw [hcode, Nat.add_mul_div_right _ _ hpos, Nat.div_eq_of_lt hfraction, Nat.zero_add]
    have hrest : (e * f.leadingBit + m) % f.leadingBit = m - f.leadingBit := by
      rw [hcode, Nat.add_mul_mod_self_right, Nat.mod_eq_of_lt hfraction]
    dsimp only
    rw [hbiased, hrest, if_neg (Nat.succ_ne_zero e), Nat.sub_add_cancel hge, hq]
    congr 1
    omega

/-! ## Fractions -/

theorem Represents.of_ratio (m : Nat) (q : Int) :
    Represents (if 0 ≤ q then (m * Nat.pow 2 q.toNat, 1) else (m, Nat.pow 2 (-q).toNat)).1
      (if 0 ≤ q then (m * Nat.pow 2 q.toNat, 1) else (m, Nat.pow 2 (-q).toNat)).2 m q := by
  unfold Represents
  by_cases hq : 0 ≤ q
  · obtain ⟨k, rfl⟩ := Int.eq_ofNat_of_zero_le hq
    rw [if_pos hq, Int.toNat_natCast, Nat.pow_eq, zpow_natCast]
    push_cast
    ring
  · obtain ⟨k, hk⟩ := Int.eq_ofNat_of_zero_le (show 0 ≤ -q by omega)
    obtain rfl : q = -(k : Int) := by omega
    rw [if_neg hq, Int.neg_neg, Int.toNat_natCast, Nat.pow_eq, zpow_neg, zpow_natCast]
    push_cast
    field_simp

/-- The same number with a longer significand. -/
theorem represents_shift (k : Nat) :
    Represents num den (m * 2 ^ k) (q - k) ↔ Represents num den m q := by
  have hsame : ((m * 2 ^ k : Nat) : ℚ) * 2 ^ (q - k) = m * 2 ^ q := by
    rw [zpow_sub₀ two_ne_zero, zpow_natCast]
    push_cast
    field_simp
  unfold Represents
  rw [hsame]

theorem represents_zero : Represents num den 0 q ↔ num = 0 := by
  rw [Represents, Nat.cast_zero, zero_mul, zero_mul]
  exact Nat.cast_eq_zero

theorem Represents.num_pos (h : Represents num den m q) (hm : 0 < m) (hden : 0 < den) : 0 < num := by
  have hpos : (0 : ℚ) < m * 2 ^ q * den := by positivity
  rw [← h] at hpos
  exact_mod_cast hpos

/-- Scaled down to its exponent, a fraction is its significand. -/
theorem Represents.scaled (h : Represents num den m q) (hden : 0 < den) :
    0 < (scaleDown num den q).2 ∧ (scaleDown num den q).1 = m * (scaleDown num den q).2 := by
  unfold Represents at h
  unfold scaleDown
  by_cases hq : 0 ≤ q
  · obtain ⟨k, rfl⟩ := Int.eq_ofNat_of_zero_le hq
    rw [zpow_natCast] at h
    rw [if_pos hq, Int.toNat_natCast]
    refine ⟨Nat.mul_pos hden (Nat.two_pow_pos k), ?_⟩
    have hcast : (num : ℚ) = ((m * (den * 2 ^ k) : Nat) : ℚ) := by
      rw [h]
      push_cast
      ring
    exact_mod_cast hcast
  · obtain ⟨k, hk⟩ := Int.eq_ofNat_of_zero_le (show 0 ≤ -q by omega)
    obtain rfl : q = -(k : Int) := by omega
    rw [zpow_neg, zpow_natCast] at h
    rw [if_neg hq, Int.neg_neg, Int.toNat_natCast]
    refine ⟨hden, ?_⟩
    have hcast : ((num * 2 ^ k : Nat) : ℚ) = ((m * den : Nat) : ℚ) := by
      push_cast
      rw [h]
      field_simp
    exact_mod_cast hcast

/-- The logarithms of a fraction and of its number differ by no more than the
rounding of the logarithms. -/
theorem Represents.log2_sub (h : Represents num den m q) (hm : 0 < m) (hden : 0 < den) :
    (num.log2 : Int) - den.log2 = q + m.log2 ∨ (num.log2 : Int) - den.log2 = q + m.log2 + 1 := by
  have hnum : num ≠ 0 := (h.num_pos hm hden).ne'
  have htwo : (1 : ℚ) < 2 := one_lt_two
  have hlow (n : Nat) (hn : n ≠ 0) : (2 : ℚ) ^ (n.log2 : Int) ≤ n := by
    rw [zpow_natCast]
    exact_mod_cast Nat.log2_self_le hn
  have hhigh (n : Nat) : (n : ℚ) < 2 ^ ((n.log2 : Int) + 1) := by
    have := @Nat.lt_log2_self n
    rw [← Nat.cast_succ, zpow_natCast]
    exact_mod_cast this
  -- from below and from above, the powers of two around the three numbers
  have hbelow : (2 : ℚ) ^ (q + m.log2 + den.log2) < 2 ^ ((num.log2 : Int) + 1) := by
    calc (2 : ℚ) ^ (q + m.log2 + den.log2) = 2 ^ (m.log2 : Int) * 2 ^ q * 2 ^ (den.log2 : Int) := by
          rw [zpow_add₀ two_ne_zero, zpow_add₀ two_ne_zero]
          ring
      _ ≤ m * 2 ^ q * den := by
          gcongr
          · exact hlow m hm.ne'
          · exact hlow den hden.ne'
      _ = num := h.symm
      _ < 2 ^ ((num.log2 : Int) + 1) := hhigh num
  have habove : (2 : ℚ) ^ (num.log2 : Int) < 2 ^ (q + (m.log2 + 1) + (den.log2 + 1)) := by
    calc (2 : ℚ) ^ (num.log2 : Int) ≤ num := hlow num hnum
      _ = m * 2 ^ q * den := h
      _ < 2 ^ ((m.log2 : Int) + 1) * 2 ^ q * 2 ^ ((den.log2 : Int) + 1) := by
          gcongr
          · exact hhigh m
          · exact hhigh den
      _ = 2 ^ (q + (m.log2 + 1) + (den.log2 + 1)) := by
          rw [zpow_add₀ two_ne_zero (q + _), zpow_add₀ two_ne_zero q]
          ring
  rw [zpow_lt_zpow_iff_right₀ htwo] at hbelow habove
  omega

/-! ## Rounding -/

theorem roundEven_mul (hden : 0 < den) : roundEven (m * den) den = m := by
  unfold roundEven
  rw [Nat.mul_mod_left, Nat.mul_div_cancel m hden]
  exact if_pos (by omega)

/-- Rounding at the right exponent, or just below it. -/
theorem Represents.nearest_eq (h : Represents num den m q) (hm : 0 < m) (hden : 0 < den)
    (hf : 0 < f.precision) (hc : f.IsCanonical m q) :
    f.nearest num den = min f.infinity (f.encode m q) := by
  have hnum : num ≠ 0 := (h.num_pos hm hden).ne'
  have hlog := h.log2_sub hm hden
  have hprecision := two_pow_precision hf
  have hlt := hc.lt_double
  have hmlog : m.log2 < f.precision := (Nat.log2_lt hm.ne').2 (by omega)
  obtain ⟨hpos, hscaled⟩ := h.scaled hden
  obtain ⟨hpos', hscaled'⟩ := ((represents_shift 1).2 h).scaled hden
  -- by the logarithms the exponent is guessed, or the one below it if the significand is long
  have hguess : max f.minExponent ((num.log2 : Int) - den.log2 - f.precision) = q ∨
      max f.minExponent ((num.log2 : Int) - den.log2 - f.precision) = q - 1 ∧ f.leadingBit ≤ m := by
    have hleast := hc.least_le
    rcases hc.leading with hq | hleading
    · left
      omega
    · have hmlog' : f.precision - 1 ≤ m.log2 := (Nat.le_log2 hm.ne').2 hleading
      omega
  unfold nearest
  rw [if_neg hnum]
  dsimp only
  rcases hguess with hguess | ⟨hguess, hleading⟩
  · -- the guess is right: the significand fits, and the exponent is kept
    have hfits : ¬ (scaleDown num den q).2 * Nat.pow 2 f.precision ≤ (scaleDown num den q).1 := by
      rw [Nat.pow_eq, hscaled, hprecision, Nat.mul_comm m, Nat.mul_le_mul_left_iff hpos]
      omega
    rw [hguess, if_neg hfits]
    dsimp only
    rw [hscaled, roundEven_mul hpos]
  · -- the guess is one too low: twice the significand does not fit, and the next exponent is taken
    have hexceeds : (scaleDown num den (q - 1)).2 * Nat.pow 2 f.precision ≤ (scaleDown num den (q - 1)).1 := by
      rw [Nat.cast_one, pow_one] at hscaled'
      rw [Nat.pow_eq, hscaled', hprecision, Nat.mul_comm (m * 2)]
      exact Nat.mul_le_mul_left _ (by omega)
    rw [hguess, if_pos hexceeds, Int.sub_add_cancel]
    dsimp only
    rw [hscaled, roundEven_mul hpos]

/-- No fraction is nearest to what is beyond infinity. -/
theorem nearest_le_infinity (f : BinaryFormat) (num den : Nat) : f.nearest num den ≤ f.infinity := by
  unfold nearest
  split
  · exact Nat.zero_le _
  · exact Nat.min_le_left _ _

/-- **What needs no rounding is kept.** A fraction that is the number with
these bits has them as its nearest number. -/
theorem nearest_of_represents (bits : Nat) (hf : 0 < f.precision) (hden : 0 < den)
    (h : Represents num den (f.decode bits).1 (f.decode bits).2) :
    f.nearest num den = min f.infinity bits := by
  have hc := f.isCanonical_decode bits
  have hcode := f.encode_decode bits
  rcases Nat.eq_zero_or_pos (f.decode bits).1 with hzero | hpos
  · -- the number is zero, and so are its bits
    rw [hzero, represents_zero] at h
    have hbits : bits = 0 := (decode_fst_eq_zero f).1 hzero
    rw [h, hbits, Nat.min_zero]
    rfl
  · rw [h.nearest_eq hpos hden hf hc, hcode]

/-- Every number but zero has parts in a format that has more digits and
reaches as far down. -/
theorem IsCanonical.widen (hc : f.IsCanonical m q) (hm : 0 < m) (hf : 0 < f.precision)
    (hfg : f.precision ≤ g.precision) (hleast : g.minExponent + g.precision ≤ f.minExponent + 1) :
    g.IsCanonical (m * 2 ^ (g.precision - 1 - m.log2)) (q - (g.precision - 1 - m.log2 : Nat)) := by
  have hlt := hc.lt_double
  rw [← two_pow_precision hf] at hlt
  have hmlog : m.log2 < f.precision := (Nat.log2_lt hm.ne').2 hlt
  have hq := hc.least_le
  refine ⟨by omega, ?_, .inr ?_⟩
  · calc m * 2 ^ (g.precision - 1 - m.log2) < 2 ^ (m.log2 + 1) * 2 ^ (g.precision - 1 - m.log2) :=
          Nat.mul_lt_mul_of_pos_right Nat.lt_log2_self (Nat.two_pow_pos _)
      _ = 2 ^ g.precision := by
          rw [← pow_add]
          congr 1
          omega
      _ = 2 * g.leadingBit := two_pow_precision (by omega)
  · calc g.leadingBit = 2 ^ m.log2 * 2 ^ (g.precision - 1 - m.log2) := by
          rw [← pow_add, leadingBit]
          show 2 ^ (g.precision - 1) = _
          congr 1
          omega
      _ ≤ m * 2 ^ (g.precision - 1 - m.log2) := Nat.mul_le_mul_right _ (Nat.log2_self_le hm.ne')

end BinaryFormat

/-! ## Numbers of the narrow format in the wide one

Every number of the 32-bit format is one of the 64-bit format, so a field of
the narrow type loses nothing in a cell of the wide one: narrowing a number
that has been widened gives it back, its sign included. Of NaNs this is not
claimed, as narrowing may change the bits that tell them apart; but a NaN that
was narrowed is of the usual kind, and comes back as well. -/

open BinaryFormat

/-! ### Sign and magnitude -/

namespace Double

variable {negative : Bool} {magnitude : Nat}

theorem toNat_ofMagnitude (h : magnitude < signBit) :
    (ofMagnitude negative magnitude).bits.toNat = magnitude + if negative then signBit else 0 := by
  have hbound : magnitude + (if negative then signBit else 0) < 2 ^ 64 := by
    unfold signBit at h ⊢
    split <;> omega
  unfold ofMagnitude
  dsimp only
  rw [UInt64.toNat_ofNat', Nat.mod_eq_of_lt hbound]

theorem magnitude_ofMagnitude (h : magnitude < signBit) :
    (ofMagnitude negative magnitude).magnitude = magnitude := by
  rw [Double.magnitude, toNat_ofMagnitude h]
  cases negative
  · exact Nat.mod_eq_of_lt h
  · rw [if_pos rfl, Nat.add_mod_right, Nat.mod_eq_of_lt h]

theorem isNegative_ofMagnitude (h : magnitude < signBit) :
    (ofMagnitude negative magnitude).isNegative = negative := by
  rw [isNegative, toNat_ofMagnitude h]
  cases negative
  · exact decide_eq_false (Nat.not_le.2 h)
  · exact decide_eq_true (Nat.le_add_left _ _)

theorem ratio_represents (x : Double) :
    Represents x.ratio.1 x.ratio.2 (double.decode x.magnitude).1 (double.decode x.magnitude).2 :=
  Represents.of_ratio _ _

theorem ratio_den_pos (x : Double) : 0 < x.ratio.2 := by
  unfold ratio
  dsimp only
  split
  · exact Nat.one_pos
  · exact Nat.two_pow_pos _

/-- A finite number is narrowed to the nearest one. -/
theorem toSingle_of_finite {x : Double} (h : x.magnitude < double.infinity) :
    x.toSingle =
      ⟨UInt32.ofNat (single.nearest x.ratio.1 x.ratio.2 + if x.isNegative then Single.signBit else 0)⟩ := by
  have hnan : x.isNaN = false := decide_eq_false (Nat.not_lt.2 h.le)
  have hinfinite : x.isInfinite = false := beq_false_of_ne h.ne
  unfold toSingle
  dsimp only
  rw [hnan, if_neg Bool.false_ne_true, hinfinite, if_neg Bool.false_ne_true]

theorem toSingle_of_infinite {x : Double} (h : x.magnitude = double.infinity) :
    x.toSingle = ⟨UInt32.ofNat (single.infinity + if x.isNegative then Single.signBit else 0)⟩ := by
  have hnan : x.isNaN = false := decide_eq_false (Nat.not_lt.2 h.le)
  have hinfinite : x.isInfinite = true := beq_iff_eq.2 h
  unfold toSingle
  dsimp only
  rw [hnan, if_neg Bool.false_ne_true, hinfinite, if_pos rfl]

theorem toSingle_of_isNaN {x : Double} (h : x.isNaN = true) :
    x.toSingle = ⟨UInt32.ofNat (single.infinity +
      (x.magnitude % double.leadingBit / Single.spacing ||| Single.quietBit) +
      if x.isNegative then Single.signBit else 0)⟩ := by
  unfold toSingle
  dsimp only
  rw [h, if_pos rfl]

end Double

namespace Single

/-- The bits of a number are those of its magnitude and its sign. -/
theorem magnitude_add_sign (x : Single) :
    x.magnitude + (if x.isNegative then signBit else 0) = x.bits.toNat := by
  have hbits : x.bits.toNat < 2 ^ 32 := x.bits.toNat_lt
  unfold magnitude isNegative
  by_cases hsign : signBit ≤ x.bits.toNat
  · rw [if_pos (decide_eq_true hsign)]
    unfold signBit at hsign ⊢
    omega
  · rw [if_neg (by simpa using hsign)]
    exact Nat.mod_eq_of_lt (Nat.not_le.1 hsign)

/-! ### Finite numbers -/

variable {x : Single} {m : Nat} {q : Int}

/-- The greatest numbers of the narrow format are far below the greatest ones
of the wide format. -/
theorem encode_lt_infinity (hm : m < 2 * double.leadingBit) (hq : q < 900) :
    double.encode m q < double.infinity := by
  have hbits : double.leadingBit = 2 ^ 52 := rfl
  have hleast : double.minExponent = -1074 := rfl
  have hinfinity : double.infinity = 2047 * 2 ^ 52 := rfl
  rw [hbits] at hm
  rw [encode, hbits, hleast, hinfinity]
  have hexponent : (q - -1074).toNat ≤ 1974 := by omega
  calc (q - -1074).toNat * 2 ^ 52 + m ≤ 1974 * 2 ^ 52 + m :=
        Nat.add_le_add_right (Nat.mul_le_mul_right _ hexponent) m
    _ < 2047 * 2 ^ 52 := by omega

/-- The exponents of finite numbers of the narrow format. -/
theorem exponent_lt (h : x.magnitude < single.infinity) : (single.decode x.magnitude).2 < 900 := by
  have hbits : single.leadingBit = 2 ^ 23 := rfl
  have hleast : single.minExponent = -149 := rfl
  have hinfinity : single.infinity = 255 * 2 ^ 23 := rfl
  rw [hinfinity] at h
  unfold decode
  rw [hbits, hleast]
  dsimp only
  split <;> dsimp only <;> omega

/-- The parts that a number but zero has in the wide format. -/
theorem isCanonical_widened (hm : 0 < m) (hc : single.IsCanonical m q) :
    double.IsCanonical (m * 2 ^ (52 - m.log2)) (q - (52 - m.log2 : Nat)) :=
  hc.widen hm (by decide) (by decide) (by decide)

/-- A finite number but zero is written in the wide format with as long a
significand as fits there. -/
theorem nearest_widened (hm : 0 < m) (hc : single.IsCanonical m q) (hq : q < 900) :
    (if 0 ≤ q then double.nearest (m * Nat.pow 2 q.toNat) 1
      else double.nearest m (Nat.pow 2 (-q).toNat)) =
      double.encode (m * 2 ^ (52 - m.log2)) (q - (52 - m.log2 : Nat)) := by
  have hwide := isCanonical_widened hm hc
  have hlonger : 0 < m * 2 ^ (52 - m.log2) := Nat.mul_pos hm (Nat.two_pow_pos _)
  have hfinite : double.encode (m * 2 ^ (52 - m.log2)) (q - (52 - m.log2 : Nat)) < double.infinity :=
    encode_lt_infinity hwide.lt_double (by omega)
  have hratio := (represents_shift (52 - m.log2)).2 (Represents.of_ratio m q)
  by_cases hsign : 0 ≤ q
  · rw [if_pos hsign] at hratio
    rw [if_pos hsign, hratio.nearest_eq hlonger Nat.one_pos (by decide) hwide]
    exact Nat.min_eq_right hfinite.le
  · rw [if_neg hsign] at hratio
    rw [if_neg hsign, hratio.nearest_eq hlonger (Nat.two_pow_pos _) (by decide) hwide]
    exact Nat.min_eq_right hfinite.le

/-- **A finite number is widened exactly.** In the wide format it is finite, and
a fraction that is the one number is the other. -/
theorem exists_toDouble (h : x.magnitude < single.infinity) :
    ∃ magnitude < double.infinity, x.toDouble = .ofMagnitude x.isNegative magnitude ∧
      ∀ num den, Represents num den (double.decode magnitude).1 (double.decode magnitude).2 →
        Represents num den (single.decode x.magnitude).1 (single.decode x.magnitude).2 := by
  have hq := exponent_lt h
  have hc := single.isCanonical_decode x.magnitude
  unfold toDouble
  rw [if_neg (Nat.not_le.2 h)]
  rcases Nat.eq_zero_or_pos (single.decode x.magnitude).1 with hzero | hpos
  · have hmagnitude : x.magnitude = 0 := (decode_fst_eq_zero single).1 hzero
    refine ⟨0, by decide, ?_, ?_⟩
    · rw [hmagnitude]
      rfl
    · intro num den hwide
      rw [(decode_fst_eq_zero double).2 rfl, represents_zero] at hwide
      rw [hzero, represents_zero]
      exact hwide
  · dsimp only
    rw [nearest_widened hpos hc hq]
    have hwide := isCanonical_widened hpos hc
    refine ⟨_, encode_lt_infinity hwide.lt_double (by omega), rfl, fun num den => ?_⟩
    rw [decode_encode hwide]
    exact (represents_shift _).1

/-- Infinity is widened to infinity. -/
theorem toDouble_of_infinite (h : x.magnitude = single.infinity) :
    x.toDouble = .ofMagnitude x.isNegative double.infinity := by
  have hnan : x.isNaN = false := decide_eq_false (Nat.not_lt.2 h.le)
  unfold toDouble
  rw [if_pos h.ge, hnan, Bool.false_and, if_neg Bool.false_ne_true, h, Nat.sub_self, Nat.zero_mul]
  rfl

/-- **Narrowing undoes widening.** -/
theorem toSingle_toDouble (h : x.isNaN = false) : x.toDouble.toSingle = x := by
  have hmagnitude : x.magnitude ≤ single.infinity := Nat.not_lt.1 (of_decide_eq_false h)
  have hinfinity : double.infinity < Double.signBit := by decide
  rcases Nat.lt_or_eq_of_le hmagnitude with hfinite | hinfinite
  · obtain ⟨magnitude, hlt, heq, hrepresents⟩ := exists_toDouble hfinite
    have hbound : magnitude < Double.signBit := Nat.lt_trans hlt hinfinity
    have hwide : x.toDouble.magnitude = magnitude := by rw [heq, Double.magnitude_ofMagnitude hbound]
    have hnegative : x.toDouble.isNegative = x.isNegative := by
      rw [heq, Double.isNegative_ofMagnitude hbound]
    have hratio := x.toDouble.ratio_represents
    rw [hwide] at hratio
    have hnearest := nearest_of_represents x.magnitude (by decide) x.toDouble.ratio_den_pos
      (hrepresents _ _ hratio)
    rw [Nat.min_eq_right hfinite.le] at hnearest
    rw [Double.toSingle_of_finite (hwide ▸ hlt), hnearest, hnegative, magnitude_add_sign,
      UInt32.ofNat_toNat]
  · have heq := toDouble_of_infinite hinfinite
    have hwide : x.toDouble.magnitude = double.infinity := by
      rw [heq, Double.magnitude_ofMagnitude hinfinity]
    have hnegative : x.toDouble.isNegative = x.isNegative := by
      rw [heq, Double.isNegative_ofMagnitude hinfinity]
    rw [Double.toSingle_of_infinite hwide, hnegative, ← hinfinite, magnitude_add_sign,
      UInt32.ofNat_toNat]

/-! ### NaNs -/

theorem magnitude_mk {negative : Bool} {magnitude : Nat} (h : magnitude < signBit) :
    (⟨UInt32.ofNat (magnitude + if negative then signBit else 0)⟩ : Single).magnitude = magnitude := by
  have hbound : magnitude + (if negative then signBit else 0) < 2 ^ 32 := by
    unfold signBit at h ⊢
    split <;> omega
  rw [Single.magnitude, UInt32.toNat_ofNat', Nat.mod_eq_of_lt hbound]
  cases negative
  · exact Nat.mod_eq_of_lt h
  · rw [if_pos rfl, Nat.add_mod_right, Nat.mod_eq_of_lt h]

/-- A fraction that has the quiet bit set does not change when it is set. -/
theorem or_quietBit {fraction : Nat} (hlow : quietBit ≤ fraction) (hhigh : fraction < single.leadingBit) :
    fraction ||| quietBit = fraction := by
  have hquiet : quietBit = 2 ^ 22 * 1 := rfl
  have hleading : single.leadingBit = 2 * quietBit := rfl
  have hrest : fraction - quietBit < 2 ^ 22 := by omega
  have hfraction : fraction = quietBit ||| (fraction - quietBit) := by
    conv_lhs => rw [← Nat.add_sub_cancel' hlow]
    rw [hquiet] at hrest ⊢
    exact Nat.two_pow_add_eq_or_of_lt hrest 1
  rw [hfraction, Nat.or_comm, ← Nat.or_assoc, Nat.or_self]

/-- **A NaN of the usual kind** keeps all its bits when it is widened and narrowed. -/
theorem toSingle_toDouble_of_quiet (h : single.infinity + quietBit ≤ x.magnitude) : x.toDouble.toSingle = x := by
  have hsingle : single.infinity = 255 * 2 ^ 23 := rfl
  have hdouble : double.infinity = 2047 * 2 ^ 52 := rfl
  have hsign : signBit = 256 * 2 ^ 23 := rfl
  have hquiet : quietBit = 2 ^ 22 := rfl
  have hspacing : spacing = 2 ^ 29 := rfl
  have hbelow : x.magnitude < signBit := Nat.mod_lt _ (by decide)
  obtain ⟨fraction, hfraction⟩ := Nat.exists_eq_add_of_le (Nat.le_of_add_right_le h)
  have hlow : quietBit ≤ fraction := by omega
  have hhigh : fraction < 2 ^ 23 := by omega
  -- it is quiet already, so that widening sets no bit and moves the fraction only
  have hloud : (x.isNaN && decide (x.magnitude % single.leadingBit < quietBit)) = false := by
    have hrest : x.magnitude % single.leadingBit = fraction := by
      rw [hfraction, hsingle]
      exact (Nat.mul_add_mod_self_right 255 (2 ^ 23) fraction).trans (Nat.mod_eq_of_lt hhigh)
    rw [hrest, decide_eq_false (Nat.not_lt.2 hlow), Bool.and_false]
  have hwide : x.toDouble = .ofMagnitude x.isNegative (double.infinity + fraction * spacing) := by
    unfold toDouble
    rw [if_pos (Nat.le_of_add_right_le h), hloud, if_neg Bool.false_ne_true, Nat.add_zero, hfraction,
      Nat.add_sub_cancel_left]
  have hbound : double.infinity + fraction * spacing < Double.signBit := by
    have hlimit : Double.signBit = 2048 * 2 ^ 52 := rfl
    rw [hdouble, hspacing, hlimit]
    omega
  have hmagnitude : x.toDouble.magnitude = double.infinity + fraction * spacing := by
    rw [hwide, Double.magnitude_ofMagnitude hbound]
  have hnan : x.toDouble.isNaN = true := by
    refine decide_eq_true ?_
    rw [hmagnitude, hspacing]
    omega
  have hkept : x.toDouble.magnitude % double.leadingBit / spacing = fraction := by
    have hleading : double.leadingBit = 2 ^ 52 := rfl
    rw [hmagnitude, hdouble, hleading, hspacing]
    omega
  rw [Double.toSingle_of_isNaN hnan, hkept, or_quietBit hlow hhigh, ← hfraction, hwide,
    Double.isNegative_ofMagnitude hbound, magnitude_add_sign, UInt32.ofNat_toNat]

end Single

namespace Double

/-- What is narrowed is a number, or a NaN of the usual kind. -/
theorem isNaN_toSingle (x : Double) :
    x.toSingle.isNaN = false ∨ single.infinity + Single.quietBit ≤ x.toSingle.magnitude := by
  have hnumber : ∀ {negative : Bool} {magnitude : Nat}, magnitude ≤ single.infinity →
      (⟨UInt32.ofNat (magnitude + if negative then Single.signBit else 0)⟩ : Single).isNaN = false := by
    intro negative magnitude hle
    have hlimit : single.infinity < Single.signBit := by decide
    rw [Single.isNaN, Single.magnitude_mk (Nat.lt_of_le_of_lt hle hlimit)]
    exact decide_eq_false (Nat.not_lt.2 hle)
  rcases Nat.lt_trichotomy x.magnitude double.infinity with hfinite | hinfinite | hnan
  · rw [toSingle_of_finite hfinite]
    exact .inl (hnumber (nearest_le_infinity single _ _))
  · rw [toSingle_of_infinite hinfinite]
    exact .inl (hnumber (Nat.le_refl _))
  · right
    have hfraction : x.magnitude % double.leadingBit / Single.spacing ||| Single.quietBit < 2 ^ 23 := by
      refine Nat.or_lt_two_pow (Nat.div_lt_of_lt_mul ?_) (by decide)
      exact Nat.mod_lt _ (by decide)
    have hsign : Single.signBit = single.infinity + 2 ^ 23 := rfl
    rw [toSingle_of_isNaN (decide_eq_true hnan), Single.magnitude_mk (by omega)]
    exact Nat.add_le_add_left Nat.right_le_or _

/-- **Once narrowed, always narrowed.** -/
theorem toSingle_toDouble_toSingle (x : Double) : x.toSingle.toDouble.toSingle = x.toSingle :=
  x.isNaN_toSingle.elim Single.toSingle_toDouble Single.toSingle_toDouble_of_quiet

end Double

end TypedTables

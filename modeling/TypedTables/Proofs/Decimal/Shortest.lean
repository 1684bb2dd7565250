import Mathlib.Data.List.TakeWhile
import TypedTables.Decimal.Layout
import TypedTables.Proofs.Decimal.Nearest
/-!
# TypedTables — decimals that stand for a real

A real is written with a decimal that rounds to it: the decimal lies between the
midpoints to the reals on either side, so that none of them is nearer. There
always is such a decimal of seventeen digits. So many digits put decimals so
close to one another that one of the two beside the real lies between the
midpoints.
-/

namespace TypedTables

open BinaryFormat (IsCanonical Represents double)

/-- The number that a decimal is. -/
def Decimal.value (d : Decimal) : ℚ := d.coefficient * 10 ^ d.exponent

namespace Double

/-- The magnitude of a finite number. -/
def size (x : Double) : ℚ := (double.decode x.magnitude).1 * 2 ^ (double.decode x.magnitude).2

/-- A magnitude behind the sign of a number. -/
def signed (x : Double) (v : ℚ) : ℚ := if x.isNegative then -v else v

/-- The number that the bits stand for, if they stand for a finite one. -/
def value (x : Double) : ℚ := x.signed x.size

/-- **The number that a rational number rounds to**: no finite number is nearer,
and where another is as near it is the even one of the two. -/
structure IsNearest (x : Double) (v : ℚ) : Prop where
  le : ∀ y : Double, y.isFinite = true → |v - x.value| ≤ |v - y.value|
  even : ∀ y : Double, y.isFinite = true → |v - x.value| = |v - y.value| → y.value ≠ x.value → x.magnitude % 2 = 0

end Double

/-! ## Numbers side by side -/

namespace BinaryFormat

variable {f : BinaryFormat} {m n : Nat} {p q : Int}

/-- **The next number above** is one step away. -/
theorem IsCanonical.add_step_le (hc : f.IsCanonical m q) (hn : f.IsCanonical n p)
    (h : (m : ℚ) * 2 ^ q < n * 2 ^ p) : (m + 1 : ℚ) * 2 ^ q ≤ n * 2 ^ p := by
  rcases le_or_gt q p with hqp | hpq
  · -- both are multiples of the step
    obtain ⟨k, rfl⟩ := Int.le.dest hqp
    have hstep : (n : ℚ) * 2 ^ (q + k) = ((n * 2 ^ k : Nat) : ℚ) * 2 ^ q := by
      rw [zpow_add₀ two_ne_zero, zpow_natCast]
      push_cast
      ring
    rw [hstep] at h ⊢
    have hlt : m < n * 2 ^ k := by exact_mod_cast lt_of_mul_lt_mul_right h (by positivity)
    gcongr
    exact_mod_cast hlt
  · -- what has a smaller exponent is below
    have hleading : f.leadingBit ≤ m := hc.leading.resolve_left (by have := hn.least_le; omega)
    have hlt : (n : ℚ) < 2 * f.leadingBit := by exact_mod_cast hn.lt_double
    refine absurd h (not_lt.2 ?_)
    calc (n : ℚ) * 2 ^ p ≤ 2 * f.leadingBit * 2 ^ p := by gcongr
      _ = f.leadingBit * 2 ^ (p + 1) := by
        rw [zpow_add₀ two_ne_zero, zpow_one]
        ring
      _ ≤ m * 2 ^ q := by
        gcongr
        · exact one_le_two
        · omega

/-- **The next number below** is one step away, or half a step where the numbers
below lie twice as dense. -/
theorem IsCanonical.le_sub_step (hc : f.IsCanonical m q) (hn : f.IsCanonical n p)
    (h : (n : ℚ) * 2 ^ p < m * 2 ^ q) : (n : ℚ) * 2 ^ p ≤ (m - 1) * 2 ^ q ∨
      m = f.leadingBit ∧ f.minExponent < q ∧ (n : ℚ) * 2 ^ p ≤ (m - 1 / 2) * 2 ^ q := by
  rcases le_or_gt q p with hqp | hpq
  · have hstep := hn.add_step_le hc h
    have hpow : (2 : ℚ) ^ q ≤ 2 ^ p := zpow_le_zpow_right₀ one_le_two hqp
    exact .inl (by linarith)
  · have hleast : f.minExponent < q := by
      have := hn.least_le
      omega
    have hleading : f.leadingBit ≤ m := hc.leading.resolve_left hleast.ne'
    have hle : (n : ℚ) + 1 ≤ 2 * f.leadingBit := by exact_mod_cast hn.lt_double
    have hbelow : (n : ℚ) * 2 ^ p ≤ (f.leadingBit - 1 / 2) * 2 ^ q := by
      calc (n : ℚ) * 2 ^ p ≤ n * 2 ^ (q - 1) := by
            gcongr
            · exact one_le_two
            · exact Int.le_sub_one_of_lt hpq
        _ ≤ (2 * f.leadingBit - 1) * 2 ^ (q - 1) := by
            gcongr
            linarith
        _ = (f.leadingBit - 1 / 2) * 2 ^ q := by
            rw [zpow_sub_one₀ two_ne_zero]
            ring
    rcases hleading.eq_or_lt with heq | hlt
    · exact .inr ⟨heq.symm, hleast, heq ▸ hbelow⟩
    · refine .inl (hbelow.trans ?_)
      have hm : (f.leadingBit : ℚ) + 1 ≤ m := by exact_mod_cast hlt
      exact mul_le_mul_of_nonneg_right (by linarith) (by positivity)

end BinaryFormat

/-! ## Intervals -/

namespace RoundingInterval

variable {r : RoundingInterval} {c m : Nat} {e q : Int} {v : ℚ} {tie : Tie} {digits : Nat}

/-- The lower end. -/
def lower (r : RoundingInterval) : ℚ := r.low * 2 ^ r.unit

/-- The number that the interval is around. -/
def middle (r : RoundingInterval) : ℚ := r.value * 2 ^ r.unit

/-- The upper end. -/
def upper (r : RoundingInterval) : ℚ := r.high * 2 ^ r.unit

/-- A number lies between the ends, or is one of them where they belong to the interval. -/
def Holds (r : RoundingInterval) (v : ℚ) : Prop :=
  if r.closed then r.lower ≤ v ∧ v ≤ r.upper else r.lower < v ∧ v < r.upper

theorem Holds.bounds (h : r.Holds v) : r.lower ≤ v ∧ v ≤ r.upper := by
  unfold Holds at h
  split at h
  · exact h
  · exact ⟨h.1.le, h.2.le⟩

theorem Holds.of_lt (hlow : r.lower < v) (hhigh : v < r.upper) : r.Holds v := by
  unfold Holds
  split
  · exact ⟨hlow.le, hhigh.le⟩
  · exact ⟨hlow, hhigh⟩

/-- An integral power as a fraction. -/
theorem zpow_eq_div (b : ℚ) (e : Int) :
    b ^ e = (if 0 ≤ e then b ^ e.natAbs else 1) / if e < 0 then b ^ e.natAbs else 1 := by
  rcases le_or_gt 0 e with he | he
  · rw [if_pos he, if_neg (not_lt.2 he), div_one, ← zpow_natCast, Int.natAbs_of_nonneg he]
  · rw [if_neg (not_le.2 he), if_pos he, ← zpow_natCast, Int.ofNat_natAbs_of_nonpos he.le, zpow_neg, one_div, inv_inv]

/-- What is compared is a fraction, the decimal in units of the interval. -/
theorem exists_contains_eq (r : RoundingInterval) (c : Nat) (e : Int) : ∃ num den : Nat, 0 < den ∧
    (num : ℚ) * 2 ^ r.unit = Decimal.value ⟨c, e⟩ * den ∧
      r.contains c e = if r.closed then decide (r.low * den ≤ num) && decide (num ≤ r.high * den)
        else decide (r.low * den < num) && decide (num < r.high * den) := by
  refine ⟨(if 0 ≤ e then c * Nat.pow 10 e.natAbs else c) * (if r.unit < 0 then Nat.pow 2 r.unit.natAbs else 1),
    (if e < 0 then Nat.pow 10 e.natAbs else 1) * (if 0 ≤ r.unit then Nat.pow 2 r.unit.natAbs else 1), ?_, ?_, rfl⟩
  · refine Nat.mul_pos ?_ ?_ <;> split <;> first | exact Nat.one_pos | exact Nat.pow_pos (by decide)
  · rw [Decimal.value, zpow_eq_div 10, zpow_eq_div 2]
    rcases lt_or_ge e 0 with he | he <;> rcases lt_or_ge r.unit 0 with hu | hu <;>
      simp only [he, hu, not_le.2, not_lt.2, if_true, if_false, Nat.pow_eq] <;> push_cast <;> field_simp

/-- **A decimal is in the interval** if its number is. -/
theorem contains_iff : r.contains c e = true ↔ r.Holds (Decimal.value ⟨c, e⟩) := by
  obtain ⟨num, den, hpos, hratio, hcontains⟩ := r.exists_contains_eq c e
  have hden : (0 : ℚ) < den := by exact_mod_cast hpos
  have hunit : (0 : ℚ) < 2 ^ r.unit := by positivity
  have hle (n : Nat) : n * den ≤ num ↔ (n : ℚ) * 2 ^ r.unit ≤ Decimal.value ⟨c, e⟩ := by
    rw [← mul_le_mul_iff_of_pos_right hden, ← hratio, mul_right_comm, mul_le_mul_iff_of_pos_right hunit]
    exact_mod_cast Iff.rfl
  have hge (n : Nat) : num ≤ n * den ↔ Decimal.value ⟨c, e⟩ ≤ (n : ℚ) * 2 ^ r.unit := by
    rw [← mul_le_mul_iff_of_pos_right hden, ← hratio, mul_right_comm, mul_le_mul_iff_of_pos_right hunit]
    exact_mod_cast Iff.rfl
  rw [hcontains, Holds, lower, upper]
  split
  · rw [Bool.and_eq_true, decide_eq_true_eq, decide_eq_true_eq, hle, hge]
  · rw [Bool.and_eq_true, decide_eq_true_eq, decide_eq_true_eq, ← not_le, ← not_le, hge, hle, not_le, not_le]

/-- The exponent of the decimals with a given count of digits. -/
def gridExponent (r : RoundingInterval) (digits : Nat) : Int := Decimal.floorLog r.ratio.1 r.ratio.2 - digits + 1

theorem ratio_eq (r : RoundingInterval) : (r.ratio.1 : ℚ) = r.middle * r.ratio.2 :=
  Represents.of_ratio r.value r.unit

theorem ratio_den_pos (r : RoundingInterval) : 0 < r.ratio.2 := by
  unfold ratio
  split
  · exact Nat.one_pos
  · exact Nat.two_pow_pos _

/-- A number in units of a power of ten, as a fraction again. -/
theorem exists_scaled {num den : Nat} (hden : 0 < den) (h : (num : ℚ) = v * den) (e : Int) : ∃ n d : Nat,
    (if 0 ≤ e then (num, den * Nat.pow 10 e.toNat) else (num * Nat.pow 10 (-e).toNat, den)) = (n, d) ∧
      0 < d ∧ (n : ℚ) * 10 ^ e = v * d := by
  rcases le_or_gt 0 e with he | he
  · refine ⟨_, _, if_pos he, Nat.mul_pos hden (Nat.pow_pos (by decide)), ?_⟩
    obtain ⟨k, rfl⟩ := Int.eq_ofNat_of_zero_le he
    rw [Int.toNat_natCast, Nat.pow_eq, zpow_natCast, h]
    push_cast
    ring
  · refine ⟨_, _, if_neg (not_le.2 he), hden, ?_⟩
    obtain ⟨k, hk⟩ := Int.eq_ofNat_of_zero_le (show 0 ≤ -e by omega)
    obtain rfl : e = -(k : Int) := by omega
    rw [Int.neg_neg, Int.toNat_natCast, Nat.pow_eq, zpow_neg, zpow_natCast]
    push_cast
    rw [h]
    field_simp

/-- A quotient lies between its integral part and the next integer. -/
theorem div_between {num den : Nat} {step : ℚ} (hden : 0 < den) (hstep : 0 < step)
    (h : (num : ℚ) * step = v * den) : ((num / den : Nat) : ℚ) * step ≤ v ∧ v < ((num / den + 1 : Nat) : ℚ) * step := by
  have hpos : (0 : ℚ) < den := by exact_mod_cast hden
  constructor
  · rw [← mul_le_mul_iff_of_pos_right hpos, ← h, mul_right_comm, mul_le_mul_iff_of_pos_right hstep]
    exact_mod_cast Nat.div_mul_le_self num den
  · rw [← mul_lt_mul_iff_of_pos_right hpos, ← h, mul_right_comm, mul_lt_mul_iff_of_pos_right hstep]
    exact_mod_cast (Nat.div_lt_iff_lt_mul hden).1 (Nat.lt_succ_self (num / den))

/-- **What is tried** are the two decimals beside the number. One of them is
found if it lies in the interval. -/
theorem decimal?_cases (r : RoundingInterval) (tie : Tie) (digits : Nat) : ∃ below : Nat,
    Decimal.value ⟨below, r.gridExponent digits⟩ ≤ r.middle ∧
      r.middle < Decimal.value ⟨below + 1, r.gridExponent digits⟩ ∧
      ((∃ d, r.decimal? tie digits = some d ∧ r.contains d.coefficient d.exponent = true) ∨
        r.decimal? tie digits = none ∧ r.contains below (r.gridExponent digits) = false ∧
          r.contains (below + 1) (r.gridExponent digits) = false) := by
  unfold decimal? gridExponent
  dsimp only
  generalize Decimal.floorLog r.ratio.1 r.ratio.2 - digits + 1 = e
  obtain ⟨num, den, hscaled, hden, hratio⟩ := exists_scaled r.ratio_den_pos r.ratio_eq e
  rw [hscaled]
  dsimp only
  obtain ⟨hbelow, habove⟩ := div_between hden (by positivity) hratio
  refine ⟨num / den, hbelow, habove, ?_⟩
  cases hc : r.contains (num / den) e <;> cases hc' : r.contains (num / den + 1) e
  · exact .inr ⟨rfl, rfl, rfl⟩
  · exact .inl ⟨_, rfl, hc'⟩
  · exact .inl ⟨_, rfl, hc⟩
  · refine .inl ⟨_, rfl, ?_⟩
    split
    · exact hc
    · exact hc'

theorem holds_of_decimal? {d : Decimal} (h : r.decimal? tie digits = some d) : r.Holds d.value := by
  obtain ⟨_, -, -, ⟨d', hd, hcontains⟩ | ⟨hnone, -⟩⟩ := r.decimal?_cases tie digits
  · obtain rfl : d' = d := Option.some.inj (hd.symm.trans h)
    exact contains_iff.1 hcontains
  · exact absurd (hnone.symm.trans h) nofun

/-- **A decimal is found where they lie closer than the ends.** -/
theorem decimal?_ne_none (hlow : r.lower < r.middle) (hhigh : r.middle < r.upper)
    (hstep : (10 : ℚ) ^ r.gridExponent digits < r.upper - r.lower) : r.decimal? tie digits ≠ none := by
  obtain ⟨below, hbelow, habove, ⟨_, hd, -⟩ | ⟨-, hnot, hnot'⟩⟩ := r.decimal?_cases tie digits
  · rw [hd]
    exact Option.some_ne_none _
  · -- otherwise both ends would lie between the same two decimals
    have hunder : Decimal.value ⟨below, r.gridExponent digits⟩ ≤ r.lower := by
      by_contra hgt
      exact Bool.eq_false_iff.1 hnot (contains_iff.2 (.of_lt (not_le.1 hgt) (hbelow.trans_lt hhigh)))
    have hover : r.upper ≤ Decimal.value ⟨below + 1, r.gridExponent digits⟩ := by
      by_contra hlt
      exact Bool.eq_false_iff.1 hnot' (contains_iff.2 (.of_lt (hlow.trans habove) (not_le.1 hlt)))
    have hnext : Decimal.value ⟨below + 1, r.gridExponent digits⟩ =
        Decimal.value ⟨below, r.gridExponent digits⟩ + 10 ^ r.gridExponent digits := by
      rw [Decimal.value, Decimal.value]
      push_cast
      ring
    linarith

end RoundingInterval

/-! ## Logarithms -/

namespace Decimal

variable {num den : Nat} {a l : Int}

/-- A power of ten below a power of two, by an approximation of the logarithm of two. -/
theorem ten_zpow_le_two_zpow (h : 100000 * (a + 1) ≤ 30103 * l) (hleast : -2000 ≤ l) (hgreatest : l ≤ 2000) :
    (10 : ℚ) ^ a ≤ 2 ^ l := by
  rcases le_or_gt 0 l with hl | hl
  · rcases le_or_gt 0 a with ha | ha
    · obtain ⟨n, rfl⟩ := Int.eq_ofNat_of_zero_le ha
      obtain ⟨k, rfl⟩ := Int.eq_ofNat_of_zero_le hl
      rw [zpow_natCast, zpow_natCast, ← pow_le_pow_iff_left₀ (by positivity) (by positivity) (show 59 ≠ 0 by decide)]
      calc ((10 : ℚ) ^ n) ^ 59 = (10 ^ 59) ^ n := by rw [← pow_mul, ← pow_mul, Nat.mul_comm]
        _ ≤ (2 ^ 196) ^ n := by gcongr; norm_num
        _ = 2 ^ (196 * n) := by rw [← pow_mul]
        _ ≤ 2 ^ (k * 59) := pow_le_pow_right₀ one_le_two (by omega)
        _ = (2 ^ k) ^ 59 := by rw [← pow_mul]
    · exact (zpow_le_one_of_nonpos₀ (by norm_num) ha.le).trans (one_le_zpow₀ one_le_two hl)
  · obtain ⟨n, hn⟩ := Int.eq_ofNat_of_zero_le (show 0 ≤ -a by omega)
    obtain ⟨k, hk⟩ := Int.eq_ofNat_of_zero_le (show 0 ≤ -l by omega)
    obtain rfl : a = -(n : Int) := by omega
    obtain rfl : l = -(k : Int) := by omega
    rw [zpow_neg, zpow_neg, zpow_natCast, zpow_natCast, inv_le_inv₀ (by positivity) (by positivity),
      ← pow_le_pow_iff_left₀ (by positivity) (by positivity) (show 93 ≠ 0 by decide)]
    calc ((2 : ℚ) ^ k) ^ 93 = (2 ^ 93) ^ k := by rw [← pow_mul, ← pow_mul, Nat.mul_comm]
      _ ≤ (10 ^ 28) ^ k := by gcongr; norm_num
      _ = 10 ^ (28 * k) := by rw [← pow_mul]
      _ ≤ 10 ^ (n * 93) := pow_le_pow_right₀ (by norm_num) (by omega)
      _ = (10 ^ n) ^ 93 := by rw [← pow_mul]

/-- **The logarithm is no overestimate.** -/
theorem ten_zpow_floorLog_le (hnum : 0 < num) (hden : 0 < den) (hleast : -2000 ≤ (num.log2 : Int) - den.log2 - 1)
    (hgreatest : (num.log2 : Int) - den.log2 - 1 ≤ 2000) : (10 : ℚ) ^ floorLog num den * den ≤ num := by
  unfold floorLog
  extract_lets guess fits
  have hfits {e : Int} (h : fits e = true) : (10 : ℚ) ^ e * den ≤ num := by
    simp only [fits] at h
    rcases le_or_gt 0 e with he | he
    · obtain ⟨k, rfl⟩ := Int.eq_ofNat_of_zero_le he
      rw [if_pos he, decide_eq_true_eq, Int.toNat_natCast, Nat.mul_comm] at h
      rw [zpow_natCast]
      exact_mod_cast h
    · obtain ⟨k, hk⟩ := Int.eq_ofNat_of_zero_le (show 0 ≤ -e by omega)
      obtain rfl : e = -(k : Int) := by omega
      rw [if_neg (not_le.2 he), decide_eq_true_eq, Int.neg_neg, Int.toNat_natCast, Nat.mul_comm] at h
      rw [zpow_neg, zpow_natCast, inv_mul_le_iff₀ (by positivity)]
      exact_mod_cast h
  by_cases htwo : fits (guess + 2) = true
  · rw [if_pos htwo]
    exact hfits htwo
  rw [if_neg htwo]
  by_cases hone : fits (guess + 1) = true
  · rw [if_pos hone]
    exact hfits hone
  rw [if_neg hone]
  by_cases hzero : fits guess = true
  · rw [if_pos hzero]
    exact hfits hzero
  rw [if_neg hzero]
  -- the guess itself is a logarithm of what the binary logarithms leave of the fraction
  calc (10 : ℚ) ^ (guess - 1) * den ≤ 2 ^ ((num.log2 : Int) - den.log2 - 1) * 2 ^ ((den.log2 : Int) + 1) := by
        gcongr
        · exact ten_zpow_le_two_zpow (by omega) hleast hgreatest
        · rw [← Nat.cast_succ, zpow_natCast]
          exact_mod_cast Nat.lt_log2_self.le
    _ = 2 ^ (num.log2 : Int) := by
        rw [← zpow_add₀ two_ne_zero]
        congr 1
        omega
    _ ≤ num := by
        rw [zpow_natCast]
        exact_mod_cast Nat.log2_self_le hnum.ne'

/-- Zeros at the end are moved into the exponent and keep the number. -/
theorem value_stripZeros (fuel : Nat) (d : Decimal) : (stripZeros fuel d).value = d.value := by
  induction fuel generalizing d with
  | zero => rfl
  | succ fuel ih =>
    rw [stripZeros]
    split
    · rename_i h
      rw [ih, value, value]
      dsimp only
      have hten : (d.coefficient : ℚ) = (d.coefficient / 10 : Nat) * 10 := by
        exact_mod_cast (Nat.div_mul_cancel (Nat.dvd_of_mod_eq_zero h.2)).symm
      rw [zpow_add_one₀ (by norm_num), hten]
      ring
    · rfl

end Decimal

/-! ## The interval of a number -/

namespace RoundingInterval

variable {m n : Nat} {p q : Int} {v : ℚ} {tie : Tie}

theorem middle_ofParts (m : Nat) (q : Int) : (ofParts m q).middle = m * 2 ^ q := by
  show ((4 * m : Nat) : ℚ) * 2 ^ (q - 2) = m * 2 ^ q
  rw [zpow_sub₀ two_ne_zero]
  push_cast
  ring

theorem upper_ofParts (m : Nat) (q : Int) : (ofParts m q).upper = (m + 1 / 2) * 2 ^ q := by
  show ((4 * m + 2 : Nat) : ℚ) * 2 ^ (q - 2) = (m + 1 / 2) * 2 ^ q
  rw [zpow_sub₀ two_ne_zero]
  push_cast
  ring

/-- Below lie numbers at half the distance only if the significand is the least one. -/
theorem lower_ofParts (hm : 0 < m) (q : Int) : (ofParts m q).lower =
    (m - if m = double.leadingBit ∧ double.minExponent < q then 1 / 4 else 1 / 2) * 2 ^ q := by
  have hlow : ((ofParts m q).low : ℚ) = 4 * m - if m = double.leadingBit ∧ double.minExponent < q then 1 else 2 := by
    simp only [ofParts]
    split <;> push_cast [show 1 ≤ 4 * m by omega, show 2 ≤ 4 * m by omega] <;> rfl
  have hunit : (2 : ℚ) ^ (ofParts m q).unit = 2 ^ q / 4 := by
    show (2 : ℚ) ^ (q - 2) = 2 ^ q / 4
    rw [zpow_sub₀ two_ne_zero]
    norm_num
  rw [lower, hlow, hunit]
  split <;> ring

/-- The lower end is no less than half of the number. -/
theorem le_two_mul_lower (hm : 0 < m) (q : Int) : (m : ℚ) * 2 ^ q ≤ 2 * (ofParts m q).lower := by
  have hone : (1 : ℚ) ≤ m := by exact_mod_cast hm
  rw [lower_ofParts hm, ← mul_assoc]
  refine mul_le_mul_of_nonneg_right ?_ (by positivity)
  split <;> linarith

theorem lower_lt_middle (hm : 0 < m) (q : Int) : (ofParts m q).lower < (ofParts m q).middle := by
  rw [lower_ofParts hm, middle_ofParts]
  refine mul_lt_mul_of_pos_right ?_ (by positivity)
  split <;> linarith

theorem middle_lt_upper (m : Nat) (q : Int) : (ofParts m q).middle < (ofParts m q).upper := by
  rw [upper_ofParts, middle_ofParts]
  exact mul_lt_mul_of_pos_right (by linarith) (by positivity)

/-- **The upper end** is no further than halfway to any number above. -/
theorem upper_le_midpoint (hc : double.IsCanonical m q) (hn : double.IsCanonical n p)
    (h : (m : ℚ) * 2 ^ q < n * 2 ^ p) : 2 * (ofParts m q).upper ≤ (m : ℚ) * 2 ^ q + n * 2 ^ p := by
  have hstep := hc.add_step_le hn h
  rw [upper_ofParts]
  linarith

/-- **The lower end** is no further than halfway to any number below. -/
theorem midpoint_le_lower (hm : 0 < m) (hc : double.IsCanonical m q) (hn : double.IsCanonical n p)
    (h : (n : ℚ) * 2 ^ p < m * 2 ^ q) : (m : ℚ) * 2 ^ q + n * 2 ^ p ≤ 2 * (ofParts m q).lower := by
  have hpos : (0 : ℚ) < 2 ^ q := by positivity
  rw [lower_ofParts hm]
  rcases hc.le_sub_step hn h with hstep | ⟨hleading, hleast, hstep⟩
  · split <;> linarith
  · rw [if_pos ⟨hleading, hleast⟩]
    linarith

/-- Only an end of the interval may be as far from the number as from another one. -/
theorem abs_sub_le_of_between {s t low high : ℚ} (hlow : low ≤ v) (hhigh : v ≤ high)
    (habove : s < t → 2 * high ≤ s + t) (hbelow : t < s → s + t ≤ 2 * low) :
    |v - s| ≤ |v - t| ∧ (|v - s| = |v - t| → t ≠ s → v = low ∨ v = high) := by
  rcases lt_trichotomy s t with hst | rfl | hts
  · have hmid := habove hst
    have hdist : |v - t| = t - v := by
      rw [abs_sub_comm]
      exact abs_of_pos (by linarith)
    rw [hdist]
    refine ⟨abs_le.2 ⟨by linarith, by linarith⟩, fun heq _ => .inr ?_⟩
    rcases abs_eq (by linarith) |>.1 heq with h | h <;> linarith
  · exact ⟨le_rfl, fun _ hne => absurd rfl hne⟩
  · have hmid := hbelow hts
    have hdist : |v - t| = v - t := abs_of_pos (by linarith)
    rw [hdist]
    refine ⟨abs_le.2 ⟨by linarith, by linarith⟩, fun heq _ => .inl ?_⟩
    rcases abs_eq (by linarith) |>.1 heq with h | h <;> linarith

/-- An end belongs to the interval of an even significand only. -/
theorem Holds.even (h : (ofParts m q).Holds v) (hend : v = (ofParts m q).lower ∨ v = (ofParts m q).upper) :
    m % 2 = 0 := by
  by_contra hodd
  have hopen : (ofParts m q).closed = false := decide_eq_false hodd
  unfold Holds at h
  rw [hopen, if_neg Bool.false_ne_true] at h
  exact hend.elim h.1.ne' h.2.ne

/-- **Seventeen digits are enough.** -/
theorem decimal?_seventeen (hm : 0 < m) (hc : double.IsCanonical m q) (hq : q < 1000) (tie : Tie) :
    (ofParts m q).decimal? tie 17 ≠ none := by
  have hratio := (ofParts m q).ratio_eq
  have hden := (ofParts m q).ratio_den_pos
  rw [middle_ofParts] at hratio
  have hnum : 0 < (ofParts m q).ratio.1 := Represents.num_pos hratio hm hden
  have hlog := Represents.log2_sub hratio hm hden
  have hleast : double.minExponent = -1074 := rfl
  have hlt : m < 2 ^ 53 := hc.lt_double
  have hmlog : m.log2 < 53 := (Nat.log2_lt hm.ne').2 hlt
  have hqleast := hc.least_le
  -- the decimals of seventeen digits lie closer than one part in ten to the sixteenth of the number
  have hfloor := Decimal.ten_zpow_floorLog_le hnum hden (by omega) (by omega)
  rw [hratio, mul_le_mul_iff_of_pos_right (by exact_mod_cast hden)] at hfloor
  have hgrid : (10 : ℚ) ^ (ofParts m q).gridExponent 17 ≤ m / 10 ^ 16 * 2 ^ q := by
    have hexponent : (ofParts m q).gridExponent 17 =
        Decimal.floorLog (ofParts m q).ratio.1 (ofParts m q).ratio.2 - (16 : Nat) := by
      unfold gridExponent
      omega
    rw [hexponent, zpow_sub₀ (by norm_num), zpow_natCast]
    calc (10 : ℚ) ^ Decimal.floorLog (ofParts m q).ratio.1 (ofParts m q).ratio.2 / 10 ^ 16
        ≤ (m : ℚ) * 2 ^ q / 10 ^ 16 := by gcongr
      _ = (m : ℚ) / 10 ^ 16 * 2 ^ q := by ring
  refine decimal?_ne_none (lower_lt_middle hm q) (middle_lt_upper m q) (hgrid.trans_lt ?_)
  rw [upper_ofParts, lower_ofParts hm, ← sub_mul]
  refine mul_lt_mul_of_pos_right ?_ (by positivity)
  split
  case isTrue hdense =>
    have hm' : (m : ℚ) = 2 ^ 52 := by exact_mod_cast hdense.1
    rw [hm']
    norm_num
  case isFalse =>
    have hm' : (m : ℚ) < 2 ^ 53 := by exact_mod_cast hlt
    linarith

end RoundingInterval

namespace Double

open RoundingInterval (ofParts)

variable {x : Double} {v : ℚ}

/-- The exponents of finite numbers. -/
theorem exponent_lt (h : x.isFinite = true) : (double.decode x.magnitude).2 < 1000 := by
  have hbits : double.leadingBit = 2 ^ 52 := rfl
  have hleast : double.minExponent = -1074 := rfl
  have hfinite : x.magnitude < 2047 * 2 ^ 52 := of_decide_eq_true h
  unfold BinaryFormat.decode
  rw [hbits, hleast]
  dsimp only
  split <;> dsimp only <;> omega

/-- The numbers that round to a number. -/
def interval (x : Double) : RoundingInterval :=
  ofParts (double.decode x.magnitude).1 (double.decode x.magnitude).2

theorem significand_pos (h : x.magnitude ≠ 0) : 0 < (double.decode x.magnitude).1 :=
  Nat.pos_of_ne_zero fun hm => h ((BinaryFormat.decode_fst_eq_zero double).1 hm)

/-- **The shortest decimal lies in the interval** of the number. -/
theorem holds_shortest (h : x.isFinite = true) (hzero : x.magnitude ≠ 0) (tie : Tie) :
    x.interval.Holds (x.shortest tie).value := by
  have hlast := RoundingInterval.decimal?_seventeen (significand_pos hzero)
    (double.isCanonical_decode x.magnitude) (exponent_lt h) tie
  obtain ⟨d, hd⟩ : ∃ d, ((List.range 17).findSome? fun n => x.interval.decimal? tie (n + 1)) = some d := by
    rw [← Option.isSome_iff_exists, List.findSome?_isSome_iff]
    exact ⟨16, by decide, Option.isSome_iff_ne_none.2 hlast⟩
  obtain ⟨n, -, hn⟩ := List.exists_of_findSome?_eq_some hd
  have hshortest : x.shortest tie = d.stripZeros 20 := by
    have hnot : x.isZero = false := beq_false_of_ne hzero
    rw [interval] at hd
    simp [shortest, hnot, hd]
  rw [hshortest, Decimal.value_stripZeros]
  exact RoundingInterval.holds_of_decimal? hn

/-! ### Signs -/

theorem size_nonneg (x : Double) : 0 ≤ x.size := by
  unfold size
  positivity

theorem abs_signed_sub (x : Double) (v w : ℚ) : |x.signed v - w| = |v - x.signed w| := by
  unfold signed
  split
  · rw [← abs_neg]
    congr 1
    ring
  · rfl

theorem signed_value (x y : Double) : x.signed y.value = y.size ∨ x.signed y.value = -y.size := by
  unfold value signed
  split <;> split <;> simp

theorem signed_signed (x : Double) (v : ℚ) : x.signed (x.signed v) = v := by
  unfold signed
  split
  · exact neg_neg v
  · rfl

theorem signed_value_self (x : Double) : x.signed x.value = x.size := x.signed_signed x.size

/-- The last bit is the one of the significand. -/
theorem magnitude_mod_two (x : Double) : x.magnitude % 2 = (double.decode x.magnitude).1 % 2 := by
  have hcode := double.encode_decode x.magnitude
  have hbits : double.leadingBit = 2 ^ 52 := rfl
  rw [BinaryFormat.encode, hbits] at hcode
  omega

/-- **What lies between the midpoints is nearest.** -/
theorem IsNearest.of_holds (hzero : x.magnitude ≠ 0) (hv : x.interval.Holds v) : x.IsNearest (x.signed v) := by
  have hm := significand_pos hzero
  have hc := double.isCanonical_decode x.magnitude
  have hclose (y : Double) := RoundingInterval.abs_sub_le_of_between (s := x.size) (t := x.signed y.value)
    hv.bounds.1 hv.bounds.2 ?_ ?_
  · refine ⟨fun y _ => ?_, fun y _ heq hne => ?_⟩
    · rw [abs_signed_sub, abs_signed_sub, signed_value_self]
      exact (hclose y).1
    · rw [abs_signed_sub, abs_signed_sub, signed_value_self] at heq
      rw [magnitude_mod_two]
      refine hv.even ((hclose y).2 heq fun hsame => hne ?_)
      rw [← x.signed_signed y.value, hsame, ← signed_value_self, signed_signed]
  · intro hlt
    rcases x.signed_value y with hsign | hsign <;> rw [hsign] at hlt ⊢
    · exact RoundingInterval.upper_le_midpoint hc (double.isCanonical_decode y.magnitude) hlt
    · linarith [x.size_nonneg, y.size_nonneg]
  · intro hlt
    rcases x.signed_value y with hsign | hsign <;> rw [hsign] at hlt ⊢
    · exact RoundingInterval.midpoint_le_lower hm hc (double.isCanonical_decode y.magnitude) hlt
    · have hlow := RoundingInterval.le_two_mul_lower hm (double.decode x.magnitude).2
      rw [← size, ← interval] at hlow
      linarith [y.size_nonneg]

/-- **The shortest decimal of a number rounds to it.** -/
theorem isNearest_shortest (h : x.isFinite = true) (tie : Tie) : x.IsNearest (x.signed (x.shortest tie).value) := by
  by_cases hzero : x.magnitude = 0
  · have hshortest : (x.shortest tie).value = 0 := by
      have hz : x.isZero = true := beq_iff_eq.2 hzero
      simp [shortest, hz, Decimal.value]
    have hvalue : x.size = 0 := by
      rw [size, (BinaryFormat.decode_fst_eq_zero double).2 hzero, Nat.cast_zero, zero_mul]
    refine ⟨fun y _ => ?_, fun _ _ _ _ => by rw [hzero]⟩
    rw [abs_signed_sub, signed_value_self, hshortest, hvalue, sub_zero, abs_zero]
    exact abs_nonneg _
  · exact .of_holds hzero (holds_shortest h hzero tie)

end Double

/-! ## As they are written -/

/-- The number that digits stand for, perhaps with a point behind some of them. -/
def Decimal.amount (w : List Char) : ℚ :=
  let whole := w.takeWhile Char.isDigit
  let fraction := (w.dropWhile Char.isDigit).drop 1
  Nat.ofDigitChars 10 (whole ++ fraction) 0 / 10 ^ fraction.length

/-- The same, perhaps behind a sign. -/
def Decimal.signedAmount : List Char → ℚ
  | '-' :: w => -amount w
  | w => amount w

namespace Decimal

variable {w fraction : List Char}

theorem amount_of_isDigit (h : ∀ c ∈ w, c.isDigit = true) : amount w = Nat.ofDigitChars 10 w 0 := by
  simp [amount, List.takeWhile_eq_self_iff.2 h, List.dropWhile_eq_nil_iff.2 h]

theorem amount_point (h : ∀ c ∈ w, c.isDigit = true) :
    amount (w ++ '.' :: fraction) = Nat.ofDigitChars 10 (w ++ fraction) 0 / 10 ^ fraction.length := by
  simp [amount, List.takeWhile_append_of_pos h, List.dropWhile_append_of_pos h]

end Decimal

theorem isDigit_of_mem_repr {n : Nat} : ∀ c ∈ n.repr.toList, c.isDigit = true := by
  intro c hc
  rw [Nat.toList_repr] at hc
  exact Nat.isDigit_of_mem_toDigits (by decide) (by decide) hc

theorem isDigit_of_mem_zeros {n : Nat} : ∀ c ∈ List.replicate n '0', c.isDigit = true := by
  intro c hc
  rw [(List.mem_replicate.1 hc).2]
  rfl

theorem ofDigitChars_repr (n : Nat) : Nat.ofDigitChars 10 n.repr.toList 0 = n := by
  rw [Nat.toList_repr, Nat.ofDigitChars_ten_toDigits]

/-- **A decimal that is written out stands for its number.** -/
theorem RealLayout.amount_positional (d : Decimal) : Decimal.amount (positional d).toList = d.value := by
  have hdigits := @isDigit_of_mem_repr d.coefficient
  have hnumber := ofDigitChars_repr d.coefficient
  unfold positional Decimal.value
  dsimp only
  split
  case isTrue hexponent =>
    -- the point stands behind all digits and the zeros of the exponent
    obtain ⟨k, hk⟩ := Int.eq_ofNat_of_zero_le hexponent
    have hall : ∀ c ∈ (Nat.repr d.coefficient).toList ++ List.replicate k '0', c.isDigit = true :=
      List.forall_mem_append.2 ⟨hdigits, isDigit_of_mem_zeros⟩
    rw [String.toList_ofList, hk, Int.toNat_natCast, zpow_natCast, Decimal.amount_point hall]
    simp [Nat.ofDigitChars_append, Nat.ofDigitChars_replicate_zero, Nat.ofDigitChars_cons, mul_comm]
  case isFalse hexponent =>
    obtain ⟨k, hk⟩ := Int.eq_ofNat_of_zero_le (show 0 ≤ -d.exponent by omega)
    have hpower : d.exponent = -(k : Int) := by omega
    rw [hpower, Int.neg_neg, Int.toNat_natCast, zpow_neg, zpow_natCast, ← div_eq_mul_inv]
    split
    case isTrue hlt =>
      have htake : ∀ c ∈ (Nat.repr d.coefficient).toList.take ((Nat.repr d.coefficient).toList.length - k),
          c.isDigit = true := fun c hc => hdigits c (List.mem_of_mem_take hc)
      have hlength : ((Nat.repr d.coefficient).toList.drop
          ((Nat.repr d.coefficient).toList.length - k)).length = k := by
        rw [List.length_drop]
        omega
      rw [String.toList_ofList, Decimal.amount_point htake, List.take_append_drop, hnumber, hlength]
    case isFalse hge =>
      have hlength : (List.replicate (k - (Nat.repr d.coefficient).toList.length) '0' ++
          (Nat.repr d.coefficient).toList).length = k := by
        rw [List.length_append, List.length_replicate]
        omega
      have hzero : ∀ c ∈ ['0'], c.isDigit = true := by simp
      rw [String.toList_ofList, ← List.singleton_append, Decimal.amount_point hzero, hlength]
      simp [Nat.ofDigitChars_append, Nat.ofDigitChars_replicate_zero, Nat.ofDigitChars_cons]

end TypedTables

import TypedTables.Text.Blank
/-!
# TypedTables — identifiers

Names that can stand in SQL without quotes: an ASCII letter or underscore,
then ASCII letters, digits and underscores. They have a first letter, so that
no identifier is blank.
-/

namespace TypedTables

namespace Identifier

def isStart (c : Char) : Bool := c.isAlpha || c == '_'

def isPart (c : Char) : Bool := c.isAlphanum || c == '_'

/-- Whether a row of characters is an identifier. -/
def isValidChars : List Char → Bool
  | [] => false
  | c :: cs => isStart c && cs.all isPart

/-- Whether a name is an identifier. -/
def isValid (name : String) : Bool := isValidChars name.toList

/-! ## Letters -/

variable {c : Char} {name : String}

/-- The characters of an identifier. -/
theorem exists_cons_of_isValid (h : isValid name = true) :
    ∃ c w, name.toList = c :: w ∧ isStart c = true ∧ ∀ d ∈ c :: w, isPart d = true := by
  unfold isValid at h
  rcases hname : name.toList with _ | ⟨c, w⟩
  · rw [hname] at h
    nomatch h
  · rw [hname] at h
    simp only [isValidChars, Bool.and_eq_true, List.all_eq_true] at h
    refine ⟨c, w, rfl, h.1, fun d hd => ?_⟩
    rcases List.mem_cons.1 hd with rfl | hd
    · have hs := h.1
      simp only [isStart, Bool.or_eq_true] at hs
      simp only [isPart, Char.isAlphanum, Bool.or_eq_true]
      exact hs.imp_left .inl
    · exact h.2 d hd

/-- The first character of an identifier is ASCII. -/
theorem toNat_lt_of_isStart (h : isStart c = true) : c.toNat < 128 := by
  have hupper : c.isUpper = true → c.toNat ≤ 90 := fun hc =>
    UInt32.le_iff_toNat_le.1 (of_decide_eq_true hc).2
  have hlower : c.isLower = true → c.toNat ≤ 122 := fun hc =>
    UInt32.le_iff_toNat_le.1 (of_decide_eq_true (Bool.and_eq_true_iff.1 hc).2)
  rcases Bool.or_eq_true_iff.1 h with halpha | hsign
  · rcases Bool.or_eq_true_iff.1 halpha with hc | hc
    · have := hupper hc
      omega
    · have := hlower hc
      omega
  · obtain rfl := beq_iff_eq.1 hsign
    decide

/-- So it is one of a few characters. -/
theorem exists_ofNat_of_isStart (h : isStart c = true) : ∃ n < 128, Char.ofNat n = c :=
  ⟨c.toNat, toNat_lt_of_isStart h, Char.ofNat_toNat c⟩

/-- None of them is a blank, and so no identifier is. -/
theorem allBlank_eq_false (h : isValid name = true) : Text.allBlank name = false := by
  have hascii : ∀ n < 128, isStart (Char.ofNat n) = true → Text.isBlank (Char.ofNat n) = false := by
    decide +kernel
  obtain ⟨c, w, hname, hc, -⟩ := exists_cons_of_isValid h
  obtain ⟨n, hn, rfl⟩ := exists_ofNat_of_isStart hc
  rw [Text.allBlank, hname, List.all_cons, hascii n hn hc, Bool.false_and]

end Identifier

end TypedTables

import Mathlib.Tactic.Common
import TypedTables.Source.Code
import TypedTables.Text.Quoted
/-!
# TypedTables — lines and quoted texts read back

Lines that are joined are the lines of the text they are joined to, as long as
no character in them breaks a line. A text with breaks in it becomes several
lines; all but the first of them are its own. A literal stands for the text it
was written from, whatever comes after it, and is one line whatever stands in the
text.
-/

namespace TypedTables

namespace Text

/-! ## Lines -/

section Lines

variable {a b s t : String} {ls : List String} {cs rest taken : List Char}

/-- **Whether a text is one line**: it has no line break and no carriage return. -/
def IsLine (s : String) : Prop := ∀ c ∈ s.toList, c ≠ '\n' ∧ c ≠ '\r'

instance : Decidable (IsLine s) := List.decidableBAll (fun c => c ≠ '\n' ∧ c ≠ '\r') s.toList

/-- A text is one line if none of its characters ends one. -/
theorem isLine_ofList (h : cs.all (fun c => c != '\n' && c != '\r') = true) : IsLine (String.ofList cs) := by
  intro c hc
  rw [String.toList_ofList] at hc
  simpa using List.all_eq_true.1 h c hc

@[simp]
theorem isLine_append : IsLine (a ++ b) ↔ IsLine a ∧ IsLine b := by
  simp only [IsLine, String.toList_append, List.mem_append]
  exact ⟨fun h => ⟨fun c hc => h c (.inl hc), fun c hc => h c (.inr hc)⟩,
    fun h c hc => hc.elim (h.1 c) (h.2 c)⟩

theorem isLine_intercalate {separator : String} (hs : IsLine separator) (h : ∀ l ∈ ls, IsLine l) :
    IsLine (String.intercalate separator ls) := by
  induction ls with
  | nil => exact (by decide : IsLine "")
  | cons l ls ih =>
    have hl := h l List.mem_cons_self
    have hrest := ih fun k hk => h k (List.mem_cons_of_mem l hk)
    rcases ls with _ | ⟨k, ls⟩
    · simpa using hl
    · rw [String.intercalate_cons_cons, isLine_append, isLine_append]
      exact ⟨⟨hl, hs⟩, hrest⟩

theorem dropReturn_of_notMem (h : '\r' ∉ cs) : dropReturn cs = cs := by
  unfold dropReturn
  rw [if_neg]
  intro hlast
  exact h (List.mem_of_getLast? (beq_iff_eq.1 hlast))

/-- A carriage return at the end is not in front of what is kept. -/
theorem dropReturn_append (hcs : cs.getLast? ≠ some '\r') : dropReturn (cs ++ rest) = cs ++ dropReturn rest := by
  rcases hrest : rest with _ | ⟨d, ds⟩
  · simp [dropReturn, hcs]
  · have hne : d :: ds ≠ [] := List.cons_ne_nil d ds
    have hlast : (cs ++ d :: ds).getLast? = (d :: ds).getLast? := by simp [List.getLast?_cons]
    unfold dropReturn
    rw [hlast, List.dropLast_append_of_ne_nil hne]
    split <;> rfl

/-- A break divides the lines of a text, by induction on what stands before it. -/
theorem linesFrom_append_break :
    linesFrom taken (cs ++ '\n' :: rest) = linesFrom taken (cs ++ ['\n']) ++ linesFrom [] rest := by
  induction cs generalizing taken with
  | nil => simp [linesFrom]
  | cons c cs ih =>
    simp only [List.cons_append, linesFrom]
    split
    · rw [ih, List.cons_append]
    · exact ih

/-- What was taken goes in front of the first line, by induction on the text;
the lines after it do not depend on it. -/
theorem linesFrom_taken (taken cs : List Char) :
    linesFrom taken (cs ++ ['\n']) =
      dropReturn (taken.reverse ++ cs.takeWhile (· != '\n')) :: (linesFrom [] (cs ++ ['\n'])).tail := by
  induction cs generalizing taken with
  | nil => simp [linesFrom]
  | cons c cs ih =>
    by_cases hc : c = '\n'
    · simp [linesFrom, hc]
    · have hone : (linesFrom [] (c :: cs ++ ['\n'])).tail = (linesFrom [] (cs ++ ['\n'])).tail := by
        rw [List.cons_append, linesFrom, if_neg hc, ih]
        rfl
      rw [hone, List.cons_append, linesFrom, if_neg hc, ih]
      simp [hc]

theorem lines_append_break (s t : String) : lines (s ++ "\n" ++ t) = lines (s ++ "\n") ++ lines t := by
  have hbreak : "\n".toList = ['\n'] := rfl
  simp only [lines, String.toList_append, hbreak, List.append_assoc, List.singleton_append]
  rw [linesFrom_append_break, List.map_append]

/-- Where nothing breaks it, a text is one line, by induction on it. -/
theorem linesFrom_of_notMem (h : '\n' ∉ cs) :
    linesFrom taken (cs ++ ['\n']) = [dropReturn (taken.reverse ++ cs)] := by
  induction cs generalizing taken with
  | nil => simp [linesFrom]
  | cons c cs ih =>
    rw [List.mem_cons, not_or] at h
    rw [List.cons_append, linesFrom, if_neg (Ne.symm h.1), ih h.2]
    simp

theorem lines_of_isLine (h : IsLine s) : lines (s ++ "\n") = [s] := by
  have hbreak : "\n".toList = ['\n'] := rfl
  rw [lines, String.toList_append, hbreak, linesFrom_of_notMem fun hn => (h _ hn).1 rfl, List.reverse_nil,
    List.nil_append, dropReturn_of_notMem fun hr => (h _ hr).2 rfl]
  simp

/-- **Lines that are joined are read back.** -/
theorem lines_join_append (h : ∀ l ∈ ls, IsLine l) (t : String) :
    lines (Code.join ls ++ t) = ls ++ lines t := by
  induction ls with
  | nil => simp [Code.join]
  | cons l ls ih =>
    have hjoin : Code.join (l :: ls) ++ t = l ++ "\n" ++ (Code.join ls ++ t) := by
      simp [Code.join, String.append_assoc]
    rw [hjoin, lines_append_break, lines_of_isLine (h l List.mem_cons_self),
      ih fun k hk => h k (List.mem_cons_of_mem l hk)]
    rfl

theorem lines_join (h : ∀ l ∈ ls, IsLine l) : lines (Code.join ls) = ls := by
  have hlines := lines_join_append h ""
  rwa [String.append_empty, show lines "" = [] from rfl, List.append_nil] at hlines

/-- Without a return, no line keeps a character that ends one: what was taken was
not broken, and a break is in no line. -/
theorem isLine_of_mem_linesFrom (htaken : ∀ c ∈ taken, c ≠ '\n' ∧ c ≠ '\r') (h : '\r' ∉ cs) :
    ∀ l ∈ linesFrom taken cs, ∀ c ∈ l, c ≠ '\n' ∧ c ≠ '\r' := by
  have hreverse : ∀ {taken : List Char}, (∀ c ∈ taken, c ≠ '\n' ∧ c ≠ '\r') →
      ∀ c ∈ taken.reverse, c ≠ '\n' ∧ c ≠ '\r' := fun hall c hc => hall c (List.mem_reverse.1 hc)
  fun_induction linesFrom taken cs with
  | case1 taken => exact List.forall_mem_nil _
  | case2 taken => exact List.forall_mem_singleton.2 (hreverse htaken)
  | case3 taken cs ih =>
    rw [List.mem_cons, not_or] at h
    refine List.forall_mem_cons.2 ⟨?_, ih (List.forall_mem_nil _) h.2⟩
    rw [dropReturn_of_notMem fun hr => (hreverse htaken _ hr).2 rfl]
    exact hreverse htaken
  | case4 taken c cs hc ih =>
    rw [List.mem_cons, not_or] at h
    exact ih (List.forall_mem_cons.2 ⟨⟨hc, Ne.symm h.1⟩, htaken⟩) h.2

/-- **The lines of a text without returns** have no break in them. -/
theorem isLine_of_mem_lines (h : '\r' ∉ s.toList) : ∀ l ∈ lines s, IsLine l := by
  intro l hl c hc
  obtain ⟨cs, hcs, rfl⟩ := List.mem_map.1 hl
  rw [String.toList_ofList] at hc
  exact isLine_of_mem_linesFrom (List.forall_mem_nil _) h cs hcs c hc

end Lines

variable {c : Char} {cs rest taken : List Char}

/-! ## Numbers of characters -/

/-- A hexadecimal digit is read as its value. -/
theorem readCodePoint_digit (n : Nat) {d : Nat} (hd : d < 16) :
    readCodePoint n (Nat.digitChar d :: rest) = readCodePoint (16 * n + d) rest := by
  have hdigit : ∀ d < 16, Nat.digitChar d ≠ '\x7d' ∧
      (if (Nat.digitChar d).isDigit then (Nat.digitChar d).toNat - '0'.toNat = d
        else ('a' ≤ Nat.digitChar d ∧ Nat.digitChar d ≤ 'f') ∧ (Nat.digitChar d).toNat - 'a'.toNat + 10 = d) := by
    decide +kernel
  obtain ⟨hbrace, hvalue⟩ := hdigit d hd
  rw [readCodePoint, if_neg (by simp [hbrace])]
  split at hvalue
  case isTrue hd => rw [if_pos hd, hvalue]
  case isFalse hd =>
    obtain ⟨⟨hlower, hupper⟩, hvalue⟩ := hvalue
    rw [if_neg hd, if_pos (by simp [hlower, hupper]), hvalue]

/-- A number is read from its digits, by induction on how many there are. -/
theorem readCodePoint_toDigits (n : Nat) :
    readCodePoint 0 (Nat.toDigits 16 n ++ rest) = readCodePoint n rest := by
  induction n using Nat.strongRecOn generalizing rest with
  | _ n ih =>
    rcases Nat.lt_or_ge n 16 with hn | hn
    · rw [Nat.toDigits_of_lt_base hn, List.singleton_append, readCodePoint_digit 0 hn, Nat.mul_zero, Nat.zero_add]
    · rw [Nat.toDigits_of_base_le (by decide) hn, List.append_assoc, ih (n / 16) (by omega), List.singleton_append,
        readCodePoint_digit (n / 16) (Nat.mod_lt n (by decide)), Nat.div_add_mod]

/-- The digits of a number, by induction on how many there are. -/
theorem exists_digitChar_of_mem_toDigits {n : Nat} (h : c ∈ Nat.toDigits 16 n) : ∃ d < 16, c = Nat.digitChar d := by
  induction n using Nat.strongRecOn with
  | _ n ih =>
    rcases Nat.lt_or_ge n 16 with hn | hn
    · rw [Nat.toDigits_of_lt_base hn] at h
      exact ⟨n, hn, List.mem_singleton.1 h⟩
    · rw [Nat.toDigits_of_base_le (by decide) hn, List.mem_append] at h
      rcases h with h | h
      · exact ih (n / 16) (by omega) h
      · exact ⟨n % 16, Nat.mod_lt n (by decide), List.mem_singleton.1 h⟩

/-! ## Literals -/

/-- **One character is read from what it is written as.** -/
theorem readLiteral_quoteChar (c : Char) (fuel : Nat) :
    readLiteral taken (fuel + 1) (quoteChar c ++ rest) = readLiteral (c :: taken) fuel rest := by
  unfold quoteChar
  split
  case h_6 hquote hbackslash _ _ _ =>
    split
    case isTrue h0 =>
      have hc : c = Char.ofNat 0 := by rw [← h0, Char.ofNat_toNat]
      rw [hc]
      rfl
    case isFalse =>
      split
      · have hpoint : readCodePoint 0 (Nat.toDigits 16 c.toNat ++ '\x7d' :: rest) = some (c.toNat, rest) := by
          rw [readCodePoint_toDigits]
          rfl
        simp [readLiteral, hpoint, Char.ofNat_toNat]
      · have hne : (c == '\\') = false := beq_eq_false_iff_ne.2 hbackslash
        rw [List.singleton_append, readLiteral, hne]
        · rfl
        · exact hquote
        · exact fun _ _ h => absurd h hbackslash
  all_goals rfl

theorem quoteChar_ne_nil (c : Char) : quoteChar c ≠ [] := by
  unfold quoteChar
  repeat' split
  all_goals simp

/-- The rest of a literal is read up to its quote, by induction on the text. -/
theorem readLiteral_flatMap_quoteChar (cs : List Char) : ∀ {fuel : Nat} {taken : List Char}, cs.length < fuel →
    readLiteral taken fuel (cs.flatMap quoteChar ++ '"' :: rest) = some (taken.reverse ++ cs, rest) := by
  induction cs with
  | nil =>
    rintro (_ | fuel) taken hf
    · cases hf
    · simp [readLiteral]
  | cons c cs ih =>
    rintro (_ | fuel) taken hf
    · cases hf
    · rw [List.flatMap_cons, List.append_assoc, readLiteral_quoteChar, ih (by simpa using hf)]
      simp

theorem length_le_flatMap_quoteChar (cs : List Char) : cs.length ≤ (cs.flatMap quoteChar).length := by
  induction cs with
  | nil => exact Nat.le_refl _
  | cons c cs ih =>
    have hc := List.length_pos_iff.2 (quoteChar_ne_nil c)
    rw [List.flatMap_cons, List.length_append, List.length_cons]
    omega

/-- **A literal stands for the text it was written from**, whatever comes after it. -/
theorem unquote?_quoted (s : String) (rest : List Char) :
    unquote? ((quoted s).toList ++ rest) = some (s.toList, rest) := by
  have hquoted : (quoted s).toList ++ rest = '"' :: (s.toList.flatMap quoteChar ++ '"' :: rest) := by
    simp [quoted]
  have hle := length_le_flatMap_quoteChar s.toList
  rw [hquoted, unquote?, readLiteral_flatMap_quoteChar]
  · rfl
  · rw [List.length_append]
    omega

/-- Breaks are not written as they are. -/
theorem ne_break_of_mem_quoteChar {d : Char} (h : d ∈ quoteChar c) : d ≠ '\n' ∧ d ≠ '\r' := by
  have hdigits : ∀ n < 16, Nat.digitChar n ≠ '\n' ∧ Nat.digitChar n ≠ '\r' := by decide +kernel
  unfold quoteChar at h
  split at h
  case h_6 _ _ hbreak hreturn _ =>
    split at h
    · simp only [List.mem_cons, List.not_mem_nil, or_false] at h
      rcases h with rfl | rfl <;> decide
    · split at h
      · simp only [List.mem_append, List.mem_cons, List.not_mem_nil, or_false] at h
        rcases h with ((rfl | rfl | rfl) | h) | rfl
        · decide
        · decide
        · decide
        · obtain ⟨n, hn, rfl⟩ := exists_digitChar_of_mem_toDigits h
          exact hdigits n hn
        · decide
      · rw [List.mem_singleton.1 h]
        exact ⟨hbreak, hreturn⟩
  all_goals
    simp only [List.mem_cons, List.not_mem_nil, or_false] at h
    rcases h with rfl | rfl <;> decide

/-- **A literal is one line.** -/
theorem isLine_quoted (s : String) : IsLine (quoted s) := by
  intro d hd
  rw [quoted, String.toList_ofList] at hd
  simp only [List.cons_append, List.mem_cons, List.mem_append, List.mem_flatMap, List.not_mem_nil, or_false] at hd
  rcases hd with rfl | ⟨c, -, hd⟩ | rfl
  · decide
  · exact ne_break_of_mem_quoteChar hd
  · decide

end Text

end TypedTables

import Mathlib.Data.List.TakeDrop
import Mathlib.Data.List.TakeWhile
import TypedTables.Database.Token
import TypedTables.Proofs.Decimal.Digits
/-!
# TypedTables — tokens in their surroundings

What a token is does not depend on the text behind it, as long as that text
begins with a character that no token goes on with. `readKind_append` says so
of every token, one reader at a time; `readKind_word` reads a bare word up to
the first character that is no part of one.
-/

namespace TypedTables

namespace Token

variable {cs rest b : List Char}

/-- A text that no token before it goes on into: nothing, or one that starts
with a blank, a parenthesis or a comma. -/
def Breaks (b : List Char) : Prop := ∀ c ∈ b.head?, c = ' ' ∨ c = ')' ∨ c = ',' ∨ c = '('

theorem breaks_nil : Breaks [] := by simp [Breaks]

theorem breaks_blank : Breaks (' ' :: b) := by simp [Breaks]

theorem breaks_close : Breaks (')' :: b) := by simp [Breaks]

theorem breaks_comma : Breaks (',' :: b) := by simp [Breaks]

theorem breaks_open : Breaks ('(' :: b) := by simp [Breaks]

/-- The four characters are told apart from every one that a token goes on
with. -/
theorem Breaks.head {c : Char} (h : Breaks (c :: b)) : c = ' ' ∨ c = ')' ∨ c = ',' ∨ c = '(' :=
  h c rfl

/-! ## Numbers -/

theorem takeDigits_append (h : Breaks b) :
    Numeral.takeDigits (cs ++ b) =
      ((Numeral.takeDigits cs).1, (Numeral.takeDigits cs).2 ++ b) := by
  refine Numeral.takeDigits_append fun c hc => ?_
  rcases h c hc with rfl | rfl | rfl | rfl <;> rfl

theorem readFraction_append (h : Breaks b) :
    readFraction (cs ++ b) = (readFraction cs).map fun r => (r.1, r.2 ++ b) := by
  rcases cs with _ | ⟨c, cs⟩
  · rcases b with _ | ⟨c, b⟩
    · rfl
    · rcases h.head with rfl | rfl | rfl | rfl <;> rfl
  · by_cases hc : c = '.'
    · subst hc
      simp [readFraction, takeDigits_append h]
    · simp [readFraction, hc]

/-- The sign and the digits of an exponent, behind its letter. -/
theorem readExponent_append (h : Breaks b) :
    readExponent (cs ++ b) = (readExponent cs).map fun r => (r.1, r.2 ++ b) := by
  rcases cs with _ | ⟨e, cs⟩
  · rcases b with _ | ⟨c, b⟩
    · rfl
    · rcases h.head with rfl | rfl | rfl | rfl <;> rfl
  · simp only [readExponent, List.cons_append]
    split
    · -- the sign is looked for in what follows the letter, which may be `b` itself
      rcases cs with _ | ⟨s, cs⟩
      · rcases b with _ | ⟨c, b⟩
        · rfl
        · rcases h.head with rfl | rfl | rfl | rfl <;> rfl
      · by_cases hp : s = '+'
        · subst hp
          simp only [List.cons_append, takeDigits_append h]
          rcases Numeral.takeDigits cs with ⟨_ | ⟨d, ds⟩, r⟩ <;> rfl
        · by_cases hm : s = '-'
          · subst hm
            simp only [List.cons_append, takeDigits_append h]
            rcases Numeral.takeDigits cs with ⟨_ | ⟨d, ds⟩, r⟩ <;> rfl
          · have ht : Numeral.takeDigits (s :: cs ++ b) = _ := takeDigits_append h
            simp only [List.cons_append] at ht
            simp [hp, hm, ht]
            rcases Numeral.takeDigits (s :: cs) with ⟨_ | ⟨d, ds⟩, r⟩ <;> rfl
    · rfl

theorem head_any_wordPart_append (h : Breaks b) :
    (cs ++ b).head?.any isWordPart = cs.head?.any isWordPart := by
  rcases cs with _ | ⟨c, cs⟩
  · rcases b with _ | ⟨c, b⟩
    · rfl
    · rcases h.head with rfl | rfl | rfl | rfl <;> rfl
  · rfl

theorem readNumber_append (h : Breaks b) {v : Value} (hr : readNumber cs = some (v, rest)) :
    readNumber (cs ++ b) = some (v, rest ++ b) := by
  simp only [readNumber, takeDigits_append h, readFraction_append h] at hr ⊢
  rcases hf : readFraction (Numeral.takeDigits cs).2 with _ | ⟨ds, r⟩
  all_goals
    simp only [hf, Option.map_none, Option.map_some, Option.getD_none, Option.getD_some,
      readExponent_append h] at hr ⊢
  case none =>
    rcases he : readExponent (Numeral.takeDigits cs).2 with _ | ⟨p, r⟩
    all_goals
      simp only [he, Option.map_none, Option.map_some, Option.getD_none, Option.getD_some,
        head_any_wordPart_append h, Option.isNone_none, Option.isNone_some] at hr ⊢
      grind
  case some =>
    rcases he : readExponent r with _ | ⟨p, r'⟩
    all_goals
      simp only [he, Option.map_none, Option.map_some, Option.getD_none, Option.getD_some,
        head_any_wordPart_append h, Option.isNone_none, Option.isNone_some] at hr ⊢
      grind

/-! ## Quotes, words and symbols -/

theorem readQuoted_append {quote : Char} (hq : ∀ c ∈ b.head?, c ≠ quote) {taken : List Char}
    {s : String} (hr : readQuoted quote taken cs = some (s, rest)) :
    readQuoted quote taken (cs ++ b) = some (s, rest ++ b) := by
  fun_induction readQuoted quote taken cs with
  | case1 => simp at hr
  | case2 taken =>
    -- the closing quote is the last character, and `b` does not double it
    obtain ⟨rfl, rfl⟩ : String.ofList taken.reverse = s ∧ [] = rest := by simpa using hr
    rcases b with _ | ⟨d, b⟩
    · simp [readQuoted]
    · have hd : d ≠ quote := hq d rfl
      simp [readQuoted, hd]
  | case3 => simp at hr
  | case4 taken rest' ih =>
    simp only [List.cons_append, readQuoted, if_true]
    exact ih hr
  | case5 taken d rest' hd =>
    obtain ⟨rfl, rfl⟩ : String.ofList taken.reverse = s ∧ d :: rest' = rest := by simpa using hr
    simp [readQuoted, hd]
  | case6 taken c d rest' hc ih =>
    simp only [List.cons_append, readQuoted, if_neg hc]
    exact ih hr

theorem Breaks.head_ne {quote : Char} (h : Breaks b) (hq : quote = '"' ∨ quote = '\x27') :
    ∀ c ∈ b.head?, c ≠ quote := by
  intro c hc
  rcases h c hc with rfl | rfl | rfl | rfl <;> rcases hq with rfl | rfl <;> decide

theorem Breaks.head_isWordPart (h : Breaks b) : ∀ c ∈ b.head?, isWordPart c = false := by
  intro c hc
  rcases h c hc with rfl | rfl | rfl | rfl <;> rfl

theorem span_append (hb : ∀ c ∈ b.head?, isWordPart c = false) :
    (cs ++ b).span isWordPart = ((cs.span isWordPart).1, (cs.span isWordPart).2 ++ b) := by
  simp only [List.span_eq_takeWhile_dropWhile]
  induction cs with
  | nil =>
    rcases b with _ | ⟨c, b⟩
    · rfl
    · simp [hb c rfl]
  | cons c cs ih =>
    by_cases hc : isWordPart c
    · simpa [hc] using ih
    · simp [hc]

/-- The second character of a symbol stands before a text that breaks. -/
theorem Breaks.exists_eq_cons (h : Breaks b) {d : Char} (hd : d = '=' ∨ d = '>')
    {tail r : List Char} (he : tail ++ b = d :: r) : ∃ r', tail = d :: r' := by
  rcases tail with _ | ⟨x, tail⟩
  · rw [List.nil_append] at he
    subst he
    rcases h.head with rfl | rfl | rfl | rfl <;> simp at hd
  · obtain ⟨rfl, -⟩ : x = d ∧ tail ++ b = r := by simpa using he
    exact ⟨tail, rfl⟩

theorem readSymbol_append (h : Breaks b) {s : String} (hr : readSymbol cs = some (s, rest)) :
    readSymbol (cs ++ b) = some (s, rest ++ b) := by
  fun_cases readSymbol cs with
  | case6 c tail h1 h2 h3 h4 h5 hc =>
    rw [readSymbol.eq_6 _ _ h1 h2 h3 h4 h5, if_pos hc] at hr
    obtain ⟨rfl, rfl⟩ : c.toString = s ∧ tail = rest := by simpa using hr
    -- no symbol of two characters comes about, whose second one would be in `b`
    rw [List.cons_append, readSymbol.eq_6, if_pos hc] <;> rintro r hcr he
    · obtain ⟨r', rfl⟩ := h.exists_eq_cons (.inl rfl) he
      exact h1 r' hcr rfl
    · obtain ⟨r', rfl⟩ := h.exists_eq_cons (.inr rfl) he
      exact h2 r' hcr rfl
    · obtain ⟨r', rfl⟩ := h.exists_eq_cons (.inl rfl) he
      exact h3 r' hcr rfl
    · obtain ⟨r', rfl⟩ := h.exists_eq_cons (.inl rfl) he
      exact h4 r' hcr rfl
    · obtain ⟨r', rfl⟩ := h.exists_eq_cons (.inl rfl) he
      exact h5 r' hcr rfl
  | case7 c tail h1 h2 h3 h4 h5 hc =>
    rw [readSymbol.eq_6 _ _ h1 h2 h3 h4 h5, if_neg hc] at hr
    cases hr
  | _ => simp_all [readSymbol]

/-! ## Tokens -/

theorem head?_any_isDigit_append (h : Breaks b) :
    (cs ++ b).head?.any Char.isDigit = cs.head?.any Char.isDigit := by
  rcases cs with _ | ⟨c, cs⟩
  · rcases b with _ | ⟨c, b⟩
    · rfl
    · rcases h.head with rfl | rfl | rfl | rfl <;> rfl
  · rfl

theorem head?_beq_quote_append (h : Breaks b) :
    ((cs ++ b).head? == some '\x27') = (cs.head? == some '\x27') := by
  rcases cs with _ | ⟨c, cs⟩
  · rcases b with _ | ⟨c, b⟩
    · rfl
    · rcases h.head with rfl | rfl | rfl | rfl <;> rfl
  · rfl

/-- **A token is the same before any text that breaks**: the text is left to
read, and nothing of it is taken. -/
theorem readKind_append (h : Breaks b) {k : TokenKind} (hr : readKind cs = some (k, rest)) :
    readKind (cs ++ b) = some (k, rest ++ b) := by
  fun_cases readKind cs with
  | case1 => simp [readKind] at hr
  | case2 tail =>
    simp only [readKind, Option.map_eq_some_iff] at hr
    obtain ⟨⟨s, r⟩, hq, he⟩ := hr
    simp only [List.cons_append, readKind, readQuoted_append (h.head_ne (.inr rfl)) hq]
    simp_all
  | case3 tail =>
    simp only [readKind, Option.map_eq_some_iff] at hr
    obtain ⟨⟨s, r⟩, hq, he⟩ := hr
    simp only [List.cons_append, readKind, readQuoted_append (h.head_ne (.inl rfl)) hq]
    simp_all
  | case4 tail r ht =>
    simp only [List.cons_append, readKind, takeDigits_append h, ht] at hr ⊢
    simp_all
  | case5 tail ds r hne ht =>
    simp only [List.cons_append, readKind, takeDigits_append h, ht] at hr ⊢
    simp_all
  | case6 c tail h1 h2 h3 hc =>
    rw [readKind.eq_5 _ _ h1 h2 h3, if_pos hc, Option.map_eq_some_iff] at hr
    -- a number
    obtain ⟨⟨v, r⟩, hn, he⟩ := hr
    obtain ⟨rfl, rfl⟩ : TokenKind.literal v = k ∧ r = rest := by simpa using he
    have hn' := readNumber_append h hn
    rw [List.cons_append] at hn' ⊢
    rw [readKind.eq_5 _ _ h1 h2 h3, head?_any_isDigit_append h, if_pos hc, hn']
    rfl
  | case7 c tail h1 h2 h3 hc hx =>
    rw [readKind.eq_5 _ _ h1 h2 h3, if_neg hc, if_pos hx] at hr
    rw [List.cons_append, readKind.eq_5 _ _ h1 h2 h3, head?_any_isDigit_append h,
      head?_beq_quote_append h, if_neg hc, if_pos hx]
    -- bytes, up to the second quote
    obtain ⟨tail, rfl⟩ : ∃ tail', tail = '\x27' :: tail' := by
      rcases tail with _ | ⟨q, tail⟩ <;> simp_all
    simp only [List.cons_append, List.tail_cons, Option.bind_eq_bind, Option.bind_eq_some_iff,
      Option.pure_def] at hr ⊢
    obtain ⟨⟨hex, r⟩, hq, bytes, hb, he⟩ := hr
    refine ⟨(hex, r ++ b), readQuoted_append (h.head_ne (.inr rfl)) hq, bytes, hb, ?_⟩
    simp_all
  | case8 c tail h1 h2 h3 hc hx hw word r hs =>
    rw [readKind.eq_5 _ _ h1 h2 h3, if_neg hc, if_neg hx, if_pos hw, hs] at hr
    -- a word, which ends before `b` as `b` goes on with none
    have hs' : (c :: tail ++ b).span isWordPart = _ := span_append h.head_isWordPart
    rw [List.cons_append] at hs' ⊢
    rw [readKind.eq_5 _ _ h1 h2 h3, head?_any_isDigit_append h, head?_beq_quote_append h,
      if_neg hc, if_neg hx, if_pos hw, hs', hs]
    simp_all
  | case9 c tail h1 h2 h3 hc hx hw =>
    rw [readKind.eq_5 _ _ h1 h2 h3, if_neg hc, if_neg hx, if_neg hw, Option.map_eq_some_iff] at hr
    obtain ⟨⟨s, r⟩, hs, he⟩ := hr
    obtain ⟨rfl, rfl⟩ : TokenKind.symbol s = k ∧ r = rest := by simpa using he
    -- a symbol
    have hs' := readSymbol_append h hs
    rw [List.cons_append] at hs' ⊢
    rw [readKind.eq_5 _ _ h1 h2 h3, head?_any_isDigit_append h, head?_beq_quote_append h,
      if_neg hc, if_neg hx, if_neg hw, hs']
    rfl

theorem isDigit_of_isWordStart {c : Char} (hc : isWordStart c = true) : c.isDigit = false := by
  have halpha : c.isAlpha = (decide (c.val ≥ 65 ∧ c.val ≤ 90) ||
      decide (c.val ≥ 97) && decide (c.val ≤ 122)) := rfl
  have hdigit : c.isDigit = (decide (c.val ≥ 48) && decide (c.val ≤ 57)) := rfl
  simp only [isWordStart, halpha, Char.toNat, Bool.or_eq_true, Bool.and_eq_true, decide_eq_true_eq,
    beq_iff_eq, ge_iff_le, UInt32.le_iff_toNat_le] at hc
  simp only [hdigit, Bool.and_eq_false_iff, decide_eq_false_iff_not, ge_iff_le,
    UInt32.le_iff_toNat_le]
  rcases hc with (hc | rfl) | hc
  · simp at hc ⊢
    omega
  · simp
  · simp at hc ⊢
    omega

/-- A bare word is read up to the first character that is no part of one. -/
theorem readKind_word {c : Char} {w : List Char} (hc : isWordStart c = true)
    (hw : ∀ d ∈ w, isWordPart d = true) (hb : ∀ d ∈ b.head?, isWordPart d = false)
    (hq : b.head? ≠ some '\x27') :
    readKind (c :: w ++ b) = some (.word (String.ofList (c :: w)), b) := by
  have hcp : isWordPart c = true := by simp [isWordPart, hc]
  have hspan : (c :: w ++ b).span isWordPart = (c :: w, b) := by
    rw [span_append hb, List.span_eq_takeWhile_dropWhile]
    have hall : ∀ d ∈ c :: w, isWordPart d = true := by
      intro d hd
      rcases List.mem_cons.1 hd with rfl | hd
      · exact hcp
      · exact hw d hd
    rw [List.takeWhile_eq_self_iff.2 hall, List.dropWhile_eq_nil_iff.2 hall]
    rfl
  -- what a word starts with starts nothing else
  have hne : ∀ d : Char, isWordStart d = false → c ≠ d := by
    rintro d hd rfl
    rw [hc] at hd
    cases hd
  have hx : ((w ++ b).head? == some '\x27') = false := by
    rcases w with _ | ⟨d, w⟩
    · simpa using hq
    · have hd := hw d (List.mem_cons_self)
      simp only [List.cons_append, List.head?_cons, beq_eq_false_iff_ne, ne_eq, Option.some.injEq]
      rintro rfl
      exact absurd hd (by decide)
  rw [List.cons_append] at hspan ⊢
  rw [readKind.eq_5 _ _ (hne _ rfl) (hne _ rfl) (hne _ rfl), hx, isDigit_of_isWordStart hc]
  simp only [hspan]
  simp [hc, hne '.' rfl]

end Token

end TypedTables

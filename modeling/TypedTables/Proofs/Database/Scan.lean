import TypedTables.Proofs.Database.Token
import TypedTables.Schema.Identifier
import TypedTables.Schema.Default
/-!
# TypedTables — the tokens of a written text

Text that is written piece by piece is read piece by piece. `Spells` says of
which kinds the tokens of a text are, or that it cannot be read, and has one
lemma for each kind of piece: a word, a symbol, a number, a quoted text. The
engine stops at the first character without a number, so a quoted text with
such a character in it is never closed.
-/

namespace TypedTables

namespace Token

variable {c : Char} {a b cs rest w : List Char} {k : TokenKind} {r : Option (List TokenKind)}

/-- A text with neither a blank nor a comment at its start. -/
def Starts (cs : List Char) : Prop := ∀ fuel, skip fuel cs = cs

/-- **A text is scanned** token by token. The blanks are single ones. -/
inductive Scans : List Char → Option (List TokenKind) → Prop
  | nil : Scans [] (some [])
  | blank {c : Char} {cs : List Char} {r : Option (List TokenKind)} :
      isBlank c = true → Starts cs → Scans cs r → Scans (c :: cs) r
  | token {w rest : List Char} {k : TokenKind} {r : Option (List TokenKind)} :
      w ≠ [] → Starts (w ++ rest) → readKind (w ++ rest) = some (k, rest) → Scans rest r →
      Scans (w ++ rest) (r.map (k :: ·))
  | stuck {c : Char} {cs : List Char} :
      Starts (c :: cs) → readKind (c :: cs) = none → Scans (c :: cs) none

/-- A text starts with a token if its first character starts one. -/
theorem starts_cons (hb : isBlank c = false) (hs : c ≠ '/') (hm : c = '-' → cs.head? ≠ some '-') :
    Starts (c :: cs) := by
  rintro (_ | fuel)
  · rfl
  · rw [skip.eq_4]
    · rw [hb]
      rfl
    · rintro rest rfl rfl
      exact hm rfl rfl
    · rintro rest rfl
      exact absurd rfl hs

theorem skip_blank (hb : isBlank c = true) (hs : Starts cs) (fuel : Nat) :
    skip (fuel + 1) (c :: cs) = cs := by
  have hne : c ≠ '-' ∧ c ≠ '/' := by
    constructor <;> rintro rfl <;> exact absurd hb (by decide)
  rw [skip.eq_4, if_pos hb, hs fuel]
  · rintro rest h _
    exact hne.1 h
  · rintro rest h _
    exact hne.2 h

/-- Every character takes two steps at most: one to pass a blank before a
token, and one to read the token. -/
theorem readAll_of_scans (h : Scans cs r) :
    ∀ {fuel : Nat} {gap : String}, 2 * cs.length < fuel →
      (readAll fuel gap cs).map (·.map (·.kind)) = r := by
  induction h with
  | nil =>
    intro fuel gap _
    cases fuel <;> rfl
  | @blank c cs r hc hs _ ih =>
    rintro (_ | fuel) gap hf
    · omega
    · have hlt : cs.length < (c :: cs).length := by simp
      rw [readAll, skip_blank hc hs, if_pos hlt]
      refine ih ?_
      rw [List.length_cons] at hf
      omega
  | @token w rest k r hne hs hk _ ih =>
    rintro (_ | fuel) gap hf
    · omega
    · obtain ⟨c, w, rfl⟩ := List.exists_cons_of_ne_nil hne
      have hrest : 2 * rest.length < fuel := by
        simp only [List.cons_append, List.length_cons, List.length_append] at hf
        omega
      rw [List.cons_append] at hs hk ⊢
      rw [readAll, hs, if_neg (Nat.lt_irrefl _), hk, ← ih hrest]
      simp only [Option.bind_eq_bind, Option.bind_some]
      cases readAll fuel "" rest <;> rfl
  | @stuck c cs hs hk =>
    rintro (_ | fuel) gap hf
    · omega
    · rw [readAll, hs, if_neg (Nat.lt_irrefl _), hk]
      rfl

/-! ## Where a text ends -/

/-- A text up to the first character without a number. -/
def cut (cs : List Char) : List Char := cs.takeWhile (·.toNat != 0)

theorem cut_append (h : ∀ c ∈ a, c.toNat ≠ 0) : cut (a ++ b) = a ++ cut b :=
  List.takeWhile_append_of_pos fun c hc => by simpa using h c hc

theorem cut_cons (h : c.toNat ≠ 0) : cut (c :: b) = c :: cut b :=
  cut_append (a := [c]) (by simpa using h)

theorem head?_of_head?_cut (h : (cut b).head? = some c) : b.head? = some c := by
  rcases b with _ | ⟨d, b⟩
  · exact h
  · unfold cut at h
    rw [List.takeWhile_cons] at h
    split at h
    · exact h
    · nomatch h

theorem Breaks.cut (h : Breaks b) : Breaks (Token.cut b) := fun c hc => h c (head?_of_head?_cut hc)

/-- **The kinds of the tokens of a text**, or nothing if it cannot be read. -/
def Spells (cs : List Char) (r : Option (List TokenKind)) : Prop := Scans (cut cs) r

theorem kinds_of_spells {s : String} (h : Spells s.toList r) :
    (ofText? s).map (·.map (·.kind)) = r := by
  refine readAll_of_scans h ?_
  have hlen : (cut s.toList).length ≤ s.toList.length := (List.takeWhile_sublist _).length_le
  rw [String.length_toList] at hlen
  omega

theorem Spells.nil : Spells [] (some []) := Scans.nil

/-- A piece without the character that ends texts, read as one token. -/
theorem Spells.token (hne : w ≠ []) (hw : ∀ c ∈ w, c.toNat ≠ 0) (hs : Starts (w ++ cut b))
    (hk : readKind (w ++ cut b) = some (k, cut b)) (h : Spells b r) :
    Spells (w ++ b) (r.map (k :: ·)) := by
  unfold Spells
  rw [cut_append hw]
  exact .token hne hs hk h

/-- A blank before a piece. -/
theorem Spells.blank (hs : Starts (cut b)) (h : Spells b r) : Spells (' ' :: b) r := by
  unfold Spells
  rw [cut_cons (by decide)]
  exact .blank rfl hs h

theorem Spells.opens (h : Spells b r) : Spells ('(' :: b) (r.map (.symbol "(" :: ·)) :=
  Spells.token (w := ['(']) (by simp) (by simp) (starts_cons rfl (by decide) nofun) rfl h

theorem Spells.closes (h : Spells b r) : Spells (')' :: b) (r.map (.symbol ")" :: ·)) :=
  Spells.token (w := [')']) (by simp) (by simp) (starts_cons rfl (by decide) nofun) rfl h

theorem Spells.star (h : Spells b r) : Spells ('*' :: b) (r.map (.symbol "*" :: ·)) :=
  Spells.token (w := ['*']) (by simp) (by simp) (starts_cons rfl (by decide) nofun) rfl h

theorem Spells.comma (h : Spells b r) : Spells (',' :: b) (r.map (.symbol "," :: ·)) :=
  Spells.token (w := [',']) (by simp) (by simp) (starts_cons rfl (by decide) nofun) rfl h

/-- The tokens of a piece and those of the text behind it. If the piece ends
the text, nothing can be read. -/
def joined : Bool → List TokenKind → Option (List TokenKind) → Option (List TokenKind)
  | true, _, _ => none
  | false, ks, r => r.map (ks ++ ·)

theorem joined_nil : joined false [] r = r := by
  cases r <;> rfl

theorem joined_joined {ends ends' : Bool} {ks ks' : List TokenKind} :
    joined ends ks (joined ends' ks' r) = joined (ends || ends') (ks ++ ks') r := by
  cases ends <;> cases ends' <;> cases r <;> simp [joined]

/-- One token more does not change whether a text can be read. -/
theorem map_joined {ends : Bool} {ks : List TokenKind} :
    (joined ends ks r).map (k :: ·) = joined ends (k :: ks) r :=
  show joined false [k] (joined ends ks r) = _ from joined_joined

theorem starts_open : Starts (cut ('(' :: b)) := by
  rw [cut_cons (by decide)]
  exact starts_cons rfl (by decide) nofun

/-! ## Words -/

theorem isWordStart_of_isStart (h : Identifier.isStart c = true) : isWordStart c = true := by
  simp only [Identifier.isStart, Bool.or_eq_true] at h
  simp only [isWordStart, Bool.or_eq_true]
  exact .inl h

theorem isWordPart_of_isPart (h : Identifier.isPart c = true) : isWordPart c = true := by
  simp only [Identifier.isPart, Char.isAlphanum, Bool.or_eq_true] at h
  simp only [isWordPart, isWordStart, Bool.or_eq_true]
  tauto

theorem toNat_ne_zero_of_isPart (h : Identifier.isPart c = true) : c.toNat ≠ 0 := by
  intro h0
  have hc : c = Char.ofNat 0 := by rw [← h0, Char.ofNat_toNat]
  rw [hc] at h
  exact absurd h (by decide)

theorem starts_of_isWordStart (h : isWordStart c = true) : Starts (c :: cs) := by
  have hne : ∀ d, isWordStart d = false → c ≠ d := by
    rintro d hd rfl
    rw [h] at hd
    cases hd
  refine starts_cons ?_ (hne _ rfl) fun hm => absurd hm (hne _ rfl)
  simp [isBlank, hne _ (rfl : isWordStart ' ' = false), hne _ (rfl : isWordStart '\t' = false),
    hne _ (rfl : isWordStart '\n' = false), hne _ (rfl : isWordStart '\x0c' = false),
    hne _ (rfl : isWordStart '\r' = false)]

theorem starts_word {n : String} (hn : Identifier.isValid n = true) :
    Starts (cut (n.toList ++ b)) := by
  obtain ⟨c, w, hname, hc, hw⟩ := Identifier.exists_cons_of_isValid hn
  rw [cut_append fun d hd => toNat_ne_zero_of_isPart (hw d (hname ▸ hd)), hname]
  exact starts_of_isWordStart (isWordStart_of_isStart hc)

/-- **An identifier is a word.** -/
theorem Spells.word {n : String} (hn : Identifier.isValid n = true) (hb : Breaks b) (h : Spells b r) :
    Spells (n.toList ++ b) (r.map (.word n :: ·)) := by
  have hstart : Starts (cut (n.toList ++ b)) := starts_word hn
  obtain ⟨c, w, hname, hc, hw⟩ := Identifier.exists_cons_of_isValid hn
  have hnum : ∀ d ∈ n.toList, d.toNat ≠ 0 := fun d hd =>
    toNat_ne_zero_of_isPart (hw d (hname ▸ hd))
  have hread := readKind_word (b := cut b) (isWordStart_of_isStart hc)
    (fun d hd => isWordPart_of_isPart (hw d (List.mem_cons_of_mem c hd))) hb.cut.head_isWordPart
    fun hq => hb.cut.head_ne (.inr rfl) _ hq rfl
  rw [← hname, String.ofList_toList] at hread
  rw [cut_append hnum] at hstart
  refine .token ?_ hnum hstart hread h
  rw [hname]
  exact List.cons_ne_nil c w

/-- Words with a blank before each. -/
theorem Spells.words {names : List String} (hn : ∀ name ∈ names, Identifier.isValid name = true)
    (hb : Breaks b) (h : Spells b r) :
    Spells (names.flatMap (fun name => ' ' :: name.toList) ++ b)
      (joined false (names.map .word) r) := by
  induction names with
  | nil => exact joined_nil.symm ▸ h
  | cons name names ih =>
    have hrest := ih fun n hm => hn n (List.mem_cons_of_mem name hm)
    have hname := hn name List.mem_cons_self
    have hbreaks : Breaks (names.flatMap (fun name => ' ' :: name.toList) ++ b) := by
      rcases names with _ | ⟨n, names⟩
      · exact hb
      · exact breaks_blank
    have hword := Spells.blank (starts_word hname) (.word hname hbreaks hrest)
    rw [map_joined] at hword
    simpa using hword

/-! ## Lists -/

/-- Tokens of several pieces with commas between them. -/
def separated : List (List TokenKind) → List TokenKind
  | [] => []
  | [ks] => ks
  | ks :: rest => ks ++ .symbol "," :: separated rest

theorem length_separated : ∀ xs : List (List TokenKind), xs.length ≤ (separated xs).length + 1
  | [] => Nat.zero_le _
  | [_] => Nat.le_add_left 1 _
  | x :: y :: rest => by
    have hrest := length_separated (y :: rest)
    have hlen : (separated (x :: y :: rest)).length = x.length + ((separated (y :: rest)).length + 1) :=
      List.length_append
    simp only [List.length_cons] at hrest ⊢
    omega

/-- **Pieces with commas between them** are written as their tokens if each of
them is. -/
theorem Spells.intercalate {α : Type} (text : α → String) (ends : α → Bool) (kinds : α → List TokenKind)
    (xs : List α)
    (hspells : ∀ x ∈ xs, ∀ b r, Breaks b → Spells b r →
      Spells ((text x).toList ++ b) (joined (ends x) (kinds x) r))
    (hstarts : ∀ x ∈ xs, ∀ b, Starts (cut ((text x).toList ++ b))) (hb : Breaks b) (h : Spells b r) :
    Spells ((String.intercalate ", " (xs.map text)).toList ++ b)
      (joined (xs.any ends) (separated (xs.map kinds)) r) := by
  induction xs with
  | nil => exact joined_nil.symm ▸ h
  | cons x xs ih =>
    have hx := hspells x List.mem_cons_self
    rcases xs with _ | ⟨y, ys⟩
    · simp only [List.map_cons, List.map_nil, String.intercalate_singleton, List.any_cons, List.any_nil,
        Bool.or_false, separated]
      exact hx b r hb h
    · have hrest := ih (fun z hz => hspells z (List.mem_cons_of_mem x hz))
        fun z hz => hstarts z (List.mem_cons_of_mem x hz)
      have hy := hstarts y (List.mem_cons_of_mem x List.mem_cons_self)
      -- what follows the comma starts as the next piece does, so the blank between is passed
      have hnext : Starts (cut ((String.intercalate ", " ((y :: ys).map text)).toList ++ b)) := by
        rcases ys with _ | ⟨z, zs⟩
        · rw [List.map_cons, List.map_nil, String.intercalate_singleton]
          exact hy b
        · rw [List.map_cons, List.map_cons, String.intercalate_cons_cons, String.toList_append,
            String.toList_append, List.append_assoc, List.append_assoc]
          exact hy _
      have hall := hx _ _ breaks_comma (.comma (.blank hnext hrest))
      rw [map_joined, joined_joined] at hall
      rw [List.map_cons, List.map_cons, String.intercalate_cons_cons, String.toList_append,
        String.toList_append, List.append_assoc, List.append_assoc]
      exact hall

/-! ## Quoted texts -/

/-- The characters of a text with its quotes doubled. -/
def doubled (cs : List Char) : List Char := cs.flatMap fun c => if c = '\x27' then ['\x27', '\x27'] else [c]

theorem doubled_quote : doubled ('\x27' :: cs) = '\x27' :: '\x27' :: doubled cs := by
  simp [doubled]

theorem doubled_cons (hc : c ≠ '\x27') : doubled (c :: cs) = c :: doubled cs := by
  simp [doubled, hc]

theorem readQuoted_doubled {taken : List Char} (hb : ∀ d ∈ b.head?, d ≠ '\x27') :
    readQuoted '\x27' taken (doubled cs ++ '\x27' :: b) =
      some (String.ofList (taken.reverse ++ cs), b) := by
  induction cs generalizing taken with
  | nil =>
    rcases b with _ | ⟨d, b⟩
    · simp [doubled, readQuoted]
    · simp [doubled, readQuoted, hb d rfl]
  | cons c cs ih =>
    by_cases hc : c = '\x27'
    · subst hc
      simp [doubled_quote, readQuoted, ih]
    · obtain ⟨d, rest, hrest⟩ : ∃ d rest, doubled cs ++ '\x27' :: b = d :: rest :=
        List.exists_cons_of_ne_nil (by simp)
      rw [doubled_cons hc, List.cons_append, hrest, readQuoted, if_neg hc, ← hrest, ih]
      simp

/-- A quoted text that stops before its closing quote. -/
theorem readQuoted_unclosed {taken : List Char} : readQuoted '\x27' taken (doubled cs) = none := by
  induction cs generalizing taken with
  | nil => rfl
  | cons c cs ih =>
    by_cases hc : c = '\x27'
    · subst hc
      simp [doubled_quote, readQuoted, ih]
    · rw [doubled_cons hc]
      rcases hrest : doubled cs with _ | ⟨d, rest⟩
      · simp [readQuoted, hc]
      · rw [readQuoted, if_neg hc, ← hrest, ih]

theorem toNat_ne_zero_of_doubled (h : ∀ d ∈ cs, d.toNat ≠ 0) : ∀ d ∈ doubled cs, d.toNat ≠ 0 := by
  intro d hd
  obtain ⟨e, he, hmem⟩ := List.mem_flatMap.1 hd
  split at hmem
  · obtain rfl : d = '\x27' := by simpa using hmem
    decide
  · obtain rfl : d = e := by simpa using hmem
    exact h d he

/-- What is left of a doubled text when it is cut inside. -/
theorem cut_doubled (h : ∃ d ∈ cs, d.toNat = 0) : cut (doubled cs ++ b) = doubled (cut cs) := by
  induction cs with
  | nil =>
    obtain ⟨d, hd, -⟩ := h
    nomatch hd
  | cons c cs ih =>
    by_cases h0 : c.toNat = 0
    · have hc : c ≠ '\x27' := by
        rintro rfl
        exact absurd h0 (by decide)
      rw [doubled_cons hc]
      simp [cut, h0, doubled]
    · have hcs : ∃ d ∈ cs, d.toNat = 0 := by
        obtain ⟨d, hd, hd0⟩ := h
        rcases List.mem_cons.1 hd with rfl | hd
        · exact absurd hd0 h0
        · exact ⟨d, hd, hd0⟩
      rw [cut_cons h0]
      by_cases hc : c = '\x27'
      · subst hc
        rw [doubled_quote, doubled_quote, List.cons_append, List.cons_append, cut_cons h0,
          cut_cons h0, ih hcs]
      · rw [doubled_cons hc, doubled_cons hc, List.cons_append, cut_cons h0, ih hcs]

/-- **A quoted text is a literal**, whatever quotes are in it. -/
theorem Spells.quoted (hcs : ∀ d ∈ cs, d.toNat ≠ 0) (hb : Breaks b) (h : Spells b r) :
    Spells ('\x27' :: (doubled cs ++ '\x27' :: b)) (r.map (.literal (.text (String.ofList cs)) :: ·)) := by
  have hw : '\x27' :: (doubled cs ++ '\x27' :: b) = ('\x27' :: (doubled cs ++ ['\x27'])) ++ b := by simp
  rw [hw]
  refine .token (List.cons_ne_nil _ _) ?_ (starts_cons rfl (by decide) nofun) ?_ h
  · intro d hd
    simp only [List.mem_cons, List.mem_append, List.not_mem_nil, or_false] at hd
    rcases hd with rfl | hd | rfl
    · decide
    · exact toNat_ne_zero_of_doubled hcs d hd
    · decide
  · have hread : readQuoted '\x27' [] (doubled cs ++ '\x27' :: cut b) = some (String.ofList cs, cut b) :=
      readQuoted_doubled (hb.cut.head_ne (.inr rfl))
    simp [readKind, hread]

/-- **A quoted text that is cut inside is never closed**, so that nothing of
the whole text can be read. -/
theorem Spells.unclosed (hcs : ∃ d ∈ cs, d.toNat = 0) : Spells ('\x27' :: (doubled cs ++ b)) none := by
  unfold Spells
  rw [cut_cons (by decide), cut_doubled hcs]
  refine .stuck (starts_cons rfl (by decide) nofun) ?_
  simp [readKind, readQuoted_unclosed]

/-! ## Numbers -/

/-- **A number without a sign**: digits, and maybe a point and more digits. -/
structure IsNumeral (w : List Char) : Prop where
  exists_digits : ∃ whole fraction, whole ≠ [] ∧ (∀ c ∈ whole ++ fraction, c.isDigit = true) ∧
    (w = whole ++ fraction ∧ fraction = [] ∨ w = whole ++ '.' :: fraction)

theorem takeDigits_append_digits (hw : ∀ c ∈ w, c.isDigit = true) (rest : List Char)
    (hr : rest.head?.any Char.isDigit = false) :
    ∃ ds, Numeral.takeDigits (w ++ rest) = (ds, rest) ∧ ds.length = w.length := by
  induction w with
  | nil =>
    rcases rest with _ | ⟨c, rest⟩
    · exact ⟨[], rfl, rfl⟩
    · have hc : c.isDigit = false := hr
      exact ⟨[], by simp [Numeral.takeDigits, Numeral.digit?, hc], rfl⟩
  | cons c w ih =>
    obtain ⟨ds, htake, hlen⟩ := ih fun d hd => hw d (List.mem_cons_of_mem c hd)
    have hc : Numeral.digit? c = some (c.toNat - '0'.toNat) := if_pos (hw c List.mem_cons_self)
    rw [List.cons_append, Numeral.takeDigits, hc, htake]
    exact ⟨_, rfl, by rw [List.length_cons, List.length_cons, hlen]⟩

namespace IsNumeral

theorem exists_cons (hw : IsNumeral w) : ∃ c rest, w = c :: rest ∧ c.isDigit = true := by
  obtain ⟨whole, fraction, hne, hdigits, hw⟩ := hw.exists_digits
  obtain ⟨c, whole, rfl⟩ := List.exists_cons_of_ne_nil hne
  have hc := hdigits c (by simp)
  rcases hw with ⟨rfl, -⟩ | rfl
  · exact ⟨c, _, rfl, hc⟩
  · exact ⟨c, _, rfl, hc⟩

theorem toNat_ne_zero (hw : IsNumeral w) : ∀ c ∈ w, c.toNat ≠ 0 := by
  obtain ⟨whole, fraction, -, hdigits, hw⟩ := hw.exists_digits
  intro c hc h0
  have hz : c = Char.ofNat 0 := by rw [← h0, Char.ofNat_toNat]
  have hnot : c ∉ whole ++ fraction := by
    intro hmem
    have hd := hdigits c hmem
    rw [hz] at hd
    exact absurd hd (by decide)
  rcases hw with ⟨rfl, -⟩ | rfl
  · exact hnot hc
  · simp only [List.mem_append, List.mem_cons] at hc hnot
    rcases hc with hc | rfl | hc
    · exact hnot (.inl hc)
    · exact absurd h0 (by decide)
    · exact hnot (.inr hc)

/-- All of a number is read, as an integer or as a real. -/
theorem exists_value (hw : IsNumeral w) :
    ∃ v, readNumber w = some (v, []) ∧ ((∃ n, v = .integer n) ∨ ∃ x, v = .real x) := by
  obtain ⟨whole, fraction, hne, hdigits, hw⟩ := hw.exists_digits
  have hwhole : ∀ c ∈ whole, c.isDigit = true := fun c hc => hdigits c (List.mem_append_left _ hc)
  have hlen : 0 < whole.length := List.length_pos_iff.2 hne
  have hds : ∀ ds : List Nat, ds.length = whole.length → ds.isEmpty = false := by
    rintro (_ | ⟨d, ds⟩) h
    · rw [List.length_nil] at h
      omega
    · rfl
  rcases hw with ⟨rfl, rfl⟩ | rfl
  · obtain ⟨ds, htake, hds'⟩ := takeDigits_append_digits hwhole [] rfl
    simp only [readNumber, htake, readFraction, readExponent, Option.getD_none, hds ds hds']
    rcases int64? (Numeral.ofDigits ds) with _ | n
    · exact ⟨_, rfl, .inr ⟨_, rfl⟩⟩
    · exact ⟨_, rfl, .inl ⟨_, rfl⟩⟩
  · obtain ⟨ds, htake, hds'⟩ := takeDigits_append_digits hwhole ('.' :: fraction) rfl
    obtain ⟨fs, htake', -⟩ := takeDigits_append_digits
      (fun c hc => hdigits c (List.mem_append_right whole hc)) [] rfl
    rw [List.append_nil] at htake'
    simp only [readNumber, htake, readFraction, htake', readExponent, Option.getD_some,
      Option.getD_none, hds ds hds']
    exact ⟨_, rfl, .inr ⟨_, rfl⟩⟩

end IsNumeral

theorem starts_of_isDigit (h : c.isDigit = true) : Starts (c :: cs) := by
  have hne : ∀ d : Char, d.isDigit = false → c ≠ d := by
    rintro d hd rfl
    rw [h] at hd
    cases hd
  refine starts_cons ?_ (hne _ rfl) fun hm => absurd hm (hne _ rfl)
  simp [isBlank, hne ' ' rfl, hne '\t' rfl, hne '\n' rfl, hne '\x0c' rfl, hne '\r' rfl]

theorem starts_number (hw : IsNumeral w) : Starts (cut (w ++ b)) := by
  rw [cut_append hw.toNat_ne_zero]
  obtain ⟨c, w, rfl, hc⟩ := hw.exists_cons
  exact starts_of_isDigit hc

/-- **A number is a literal.** -/
theorem Spells.number {v : Value} (hw : IsNumeral w) (hv : readNumber w = some (v, [])) (hb : Breaks b)
    (h : Spells b r) : Spells (w ++ b) (r.map (.literal v :: ·)) := by
  have hstart : Starts (cut (w ++ b)) := starts_number hw
  rw [cut_append hw.toNat_ne_zero] at hstart
  obtain ⟨c, w, rfl, hc⟩ := hw.exists_cons
  have hne : ∀ d : Char, d.isDigit = false → c ≠ d := by
    rintro d hd rfl
    rw [hc] at hd
    cases hd
  have hread : readKind (c :: w) = some (.literal v, []) := by
    rw [readKind.eq_5 _ _ (hne _ rfl) (hne _ rfl) (hne _ rfl), hc, Bool.true_or, if_pos rfl, hv]
    rfl
  exact .token (List.cons_ne_nil c w) hw.toNat_ne_zero hstart (readKind_append hb.cut hread) h

/-- A sign before a number. -/
theorem Spells.minus (hw : IsNumeral w) (h : Spells (w ++ b) r) :
    Spells ('-' :: (w ++ b)) (r.map (.symbol "-" :: ·)) := by
  have hhead : (cut (w ++ b)).head? ≠ some '-' := by
    intro hm
    obtain ⟨c, w, rfl, hc⟩ := hw.exists_cons
    obtain rfl : c = '-' := by simpa using head?_of_head?_cut hm
    exact absurd hc (by decide)
  exact .token (w := ['-']) (List.cons_ne_nil _ _) (by simp) (starts_cons rfl (by decide) fun _ => hhead)
    rfl h

end Token

end TypedTables

import Mathlib.Data.List.Forall2
import TypedTables.Proofs.Document.Json.Scalar
/-!
# TypedTables — documents written as JSON and read back

A document is read from a text as it was written, with or without blanks
between its parts. `Reads` says so of a text in front of whatever may follow;
lists and maps are put together from the texts of their parts, so one argument
serves the compact form and the pretty one.
-/

namespace TypedTables

namespace Json

/-! ## Blanks -/

/-- Blanks as they are written between the parts of a document. -/
def IsBlank (b : List Char) : Prop := ∀ c ∈ b, c = ' ' ∨ c = '\n'

variable {b cs rest v w : List Char} {c : Char} {fuel : Nat} {d : Document}

theorem skipBlanks_append (hb : IsBlank b) (cs : List Char) : skipBlanks (b ++ cs) = skipBlanks cs := by
  induction b with
  | nil => rfl
  | cons c b ih =>
    obtain ⟨hc, hb⟩ := List.forall_mem_cons.1 hb
    rw [List.cons_append, skipBlanks, if_pos (by rcases hc with rfl | rfl <;> rfl), ih hb]

theorem skipBlanks_skipBlanks (cs : List Char) : skipBlanks (skipBlanks cs) = skipBlanks cs := by
  induction cs with
  | nil => rfl
  | cons c cs ih =>
    rw [skipBlanks]
    split
    case isTrue => exact ih
    case isFalse hc => rw [skipBlanks, if_neg hc]

/-- Blanks before a value do not matter, and neither do they before items and
members. -/
theorem readValue_skipBlanks (fuel : Nat) (cs : List Char) : readValue fuel (skipBlanks cs) = readValue fuel cs := by
  cases fuel with
  | zero => rfl
  | succ fuel => rw [readValue, readValue, skipBlanks_skipBlanks]

theorem readItems_skipBlanks (fuel : Nat) (taken : List Document) (cs : List Char) :
    readItems fuel taken (skipBlanks cs) = readItems fuel taken cs := by
  cases fuel with
  | zero => rfl
  | succ fuel => rw [readItems, readItems, readValue_skipBlanks]

theorem readMembers_skipBlanks (fuel : Nat) (taken : List (String × Document)) (cs : List Char) :
    readMembers fuel taken (skipBlanks cs) = readMembers fuel taken cs := by
  cases fuel with
  | zero => rfl
  | succ fuel => rw [readMembers, readMembers, skipBlanks_skipBlanks]

theorem IsEnd.blank_append (hend : IsEnd rest) (hb : IsBlank b) : IsEnd (b ++ rest) := by
  rcases b with _ | ⟨c, b⟩
  · exact hend
  · rintro _ ⟨⟩
    rcases hb c List.mem_cons_self with rfl | rfl <;> exact ⟨rfl, by decide, by decide, by decide⟩

theorem isEnd_nil : IsEnd [] := nofun

theorem isEnd_comma : IsEnd (',' :: rest) := by
  rintro _ ⟨⟩
  exact ⟨rfl, by decide, by decide, by decide⟩

theorem isEnd_bracket : IsEnd (']' :: rest) := by
  rintro _ ⟨⟩
  exact ⟨rfl, by decide, by decide, by decide⟩

theorem isEnd_brace : IsEnd ('\x7d' :: rest) := by
  rintro _ ⟨⟩
  exact ⟨rfl, by decide, by decide, by decide⟩

/-! ## Texts of documents -/

/-- **A text of a document**: read in front of anything that may follow it, it
gives the document and leaves what follows. -/
def Reads (d : Document) (w : List Char) : Prop :=
  ∀ fuel rest, 2 * w.length ≤ fuel → IsEnd rest →
    ∃ left, readValue fuel (w ++ rest) = some (d, left) ∧ skipBlanks left = skipBlanks rest

/-- A text of the items of a list, of which there is at least one. -/
def ReadsItems (items : List Document) (w : List Char) : Prop :=
  ∀ fuel taken rest, 2 * w.length < fuel →
    readItems fuel taken (w ++ ']' :: rest) = some (taken.reverse ++ items, rest)

/-- A text of the members of a map, of which there is at least one. -/
def ReadsMembers (members : List (String × Document)) (w : List Char) : Prop :=
  ∀ fuel taken rest, 2 * w.length < fuel →
    readMembers fuel taken (w ++ '\x7d' :: rest) = some (taken.reverse ++ members, rest)

/-- A text that is not empty leaves a step to read it with. -/
theorem Reads.of_step (hw : w ≠ [])
    (h : ∀ fuel rest, 2 * w.length ≤ fuel + 1 → IsEnd rest →
      ∃ left, readValue (fuel + 1) (w ++ rest) = some (d, left) ∧ skipBlanks left = skipBlanks rest) :
    Reads d w := by
  intro fuel rest hfuel hend
  have hpos : 0 < w.length := List.length_pos_iff.2 hw
  obtain ⟨fuel, rfl⟩ : ∃ k, fuel = k + 1 := Nat.exists_eq_add_one.2 (by omega)
  exact h fuel rest hfuel hend

theorem Reads.blank_append (h : Reads d w) (hb : IsBlank b) : Reads d (b ++ w) := by
  intro fuel rest hfuel hend
  rw [List.length_append] at hfuel
  obtain ⟨left, hread, hleft⟩ := h fuel rest (by omega) hend
  refine ⟨left, ?_, hleft⟩
  rw [← readValue_skipBlanks, List.append_assoc, skipBlanks_append hb, readValue_skipBlanks, hread]

theorem Reads.append_blank (h : Reads d w) (hb : IsBlank b) : Reads d (w ++ b) := by
  intro fuel rest hfuel hend
  rw [List.length_append] at hfuel
  obtain ⟨left, hread, hleft⟩ := h fuel (b ++ rest) (by omega) (hend.blank_append hb)
  refine ⟨left, ?_, hleft.trans (skipBlanks_append hb rest)⟩
  rw [List.append_assoc, hread]

/-- **What was read of a whole text.** -/
theorem parse?_of_reads {text : String} (h : Reads d text.toList) : parse? text = some d := by
  obtain ⟨left, hread, hleft⟩ := h (2 * text.toList.length + 2) [] (by omega) isEnd_nil
  rw [List.append_nil] at hread
  rw [parse?, hread]
  simp only [Option.bind_eq_bind, Option.bind_some, hleft]
  rfl

/-! ## Scalars -/

theorem reads_null : Reads .null "null".toList :=
  .of_step (by decide) fun _ rest _ _ => ⟨rest, rfl, rfl⟩

theorem reads_bool (b : Bool) : Reads (.bool b) (if b then "true" else "false").toList := by
  cases b <;> exact .of_step (by decide) fun _ rest _ _ => ⟨rest, rfl, rfl⟩

theorem escapeChar_ne_nil (c : Char) : escapeChar c ≠ [] := by
  unfold escapeChar
  split
  case h_6 =>
    split
    · exact nofun
    split
    · exact nofun
    split <;> exact nofun
  all_goals exact nofun

theorem length_le_length_flatMap (s : List Char) : s.length ≤ (s.flatMap escapeChar).length := by
  induction s with
  | nil => exact Nat.le_refl _
  | cons c s ih =>
    have hpos : 0 < (escapeChar c).length := List.length_pos_iff.2 (escapeChar_ne_nil c)
    rw [List.flatMap_cons, List.length_append, List.length_cons]
    omega

/-- What follows the first quote of a string. -/
def afterQuote (s : String) : List Char := s.toList.flatMap escapeChar ++ ['"']

theorem toList_stringText (s : String) : (stringText s).toList = '"' :: afterQuote s := String.toList_ofList

theorem readString_afterQuote (s : String) (rest : List Char) :
    readString ((afterQuote s ++ rest).length + 1) [] (afterQuote s ++ rest) = some (s, rest) := by
  have hlength := length_le_length_flatMap s.toList
  rw [afterQuote, List.append_assoc, List.singleton_append, readString_flatMap]
  · rw [List.reverse_nil, List.nil_append, String.ofList_toList]
  · simp only [List.length_append, List.length_cons]
    omega

theorem reads_text (s : String) : Reads (.text s) (stringText s).toList := by
  rw [toList_stringText]
  refine .of_step (List.cons_ne_nil _ _) fun fuel rest _ _ => ⟨rest, ?_, rfl⟩
  have hread : readValue (fuel + 1) ('"' :: (afterQuote s ++ rest)) =
      (readString ((afterQuote s ++ rest).length + 1) [] (afterQuote s ++ rest)).map
        fun read => (.text read.1, read.2) := rfl
  rw [List.cons_append, hread, readString_afterQuote]
  rfl

/-- A value that begins like nothing else is a number. -/
theorem readValue_of_notMem (hc : c ∉ [' ', '\n', '\r', '\t', 'n', 't', 'f', '"', '[', '\x7b', '-']) :
    readValue (fuel + 1) (c :: cs) = readNumber false (c :: cs) := by
  simp only [List.mem_cons, List.not_mem_nil, or_false, not_or] at hc
  obtain ⟨hblank, hn, hr, ht, hnull, htrue, hfalse, hquote, hlist, hmap, hminus⟩ := hc
  have hskip : skipBlanks (c :: cs) = c :: cs := by
    rw [skipBlanks, if_neg (by simp [hblank, hn, hr, ht])]
  rw [readValue, hskip]
  split
  case h_8 => rfl
  all_goals
    rename_i heq
    obtain ⟨rfl, -⟩ := List.cons.inj heq
    contradiction

theorem toList_toString (n : Int) :
    (toString n).toList = if n < 0 then '-' :: Nat.toDigits 10 n.natAbs else Nat.toDigits 10 n.natAbs := by
  cases n with
  | ofNat m =>
    rw [if_neg (by simp)]
    exact Nat.toList_repr
  | negSucc m =>
    have htext : toString (Int.negSucc m) = "-" ++ (m + 1).repr := rfl
    rw [if_pos (Int.negSucc_lt_zero m), htext, String.toList_append, Nat.toList_repr]
    rfl

theorem reads_integer {n : Int} (hleast : Int64.minValue.toInt ≤ n) (hgreatest : n < UInt64.size) :
    Reads (.integer n) (toString n).toList := by
  obtain ⟨c, digits, hdigits⟩ := List.exists_cons_of_ne_nil (Nat.toDigits_ne_nil (n := n.natAbs) (b := 10))
  rw [toList_toString]
  refine .of_step (by split <;> simp [hdigits]) fun fuel rest _ hend => ⟨rest, ?_, rfl⟩
  have hnumber := readNumber_append hend (readNumber_integer n hleast hgreatest)
  split
  case isTrue hn =>
    rw [List.cons_append]
    rw [decide_eq_true hn] at hnumber
    exact hnumber
  case isFalse hn =>
    rw [decide_eq_false hn] at hnumber
    have hdigit : c.isDigit = true :=
      Nat.isDigit_of_mem_toDigits (b := 10) (n := n.natAbs) (by decide) (by decide) (hdigits ▸ List.mem_cons_self)
    -- the first digit is none of the characters that other values begin with
    rw [hdigits] at hnumber ⊢
    rw [List.cons_append] at hnumber ⊢
    rw [readValue_of_notMem, hnumber]
    · rfl
    · rintro hmem
      simp only [List.mem_cons, List.not_mem_nil, or_false] at hmem
      rcases hmem with rfl | rfl | rfl | rfl | rfl | rfl | rfl | rfl | rfl | rfl | rfl <;> cases hdigit

theorem skipBlanks_append_of_ne_nil (h : skipBlanks cs ≠ []) (rest : List Char) :
    skipBlanks (cs ++ rest) = skipBlanks cs ++ rest := by
  induction cs with
  | nil => exact absurd rfl h
  | cons c cs ih =>
    rw [skipBlanks] at h ⊢
    rw [List.cons_append, skipBlanks]
    split
    case isTrue hc =>
      rw [if_pos hc] at h
      exact ih h
    case isFalse => rfl

theorem skipBlanks_append_of_eq_nil (h : skipBlanks cs = []) (rest : List Char) :
    skipBlanks (cs ++ rest) = skipBlanks rest := by
  induction cs with
  | nil => rfl
  | cons c cs ih =>
    rw [skipBlanks] at h
    rw [List.cons_append, skipBlanks]
    split
    case isTrue hc =>
      rw [if_pos hc] at h
      exact ih h
    case isFalse hc =>
      rw [if_neg hc] at h
      cases h

/-- A real is only read as a number. -/
theorem exists_readNumber {x : Double} {left : List Char} (h : readValue (fuel + 1) cs = some (.real x, left)) :
    ∃ negative w, readNumber negative w = some (.real x, left) ∧
      ∀ fuel rest, readValue (fuel + 1) (cs ++ rest) = readNumber negative (w ++ rest) := by
  rw [readValue] at h
  split at h
  case h_7 w hw =>
    refine ⟨true, w, h, fun fuel rest => ?_⟩
    rw [← readValue_skipBlanks, skipBlanks_append_of_ne_nil (by simp [hw]), hw]
    rfl
  case h_8 hnull htrue hfalse hquote hlist hmap hminus =>
    obtain ⟨c, w, hw⟩ := List.exists_cons_of_ne_nil (show skipBlanks cs ≠ [] from fun hnil => by
      rw [hnil] at h
      cases h)
    refine ⟨false, skipBlanks cs, h, fun fuel rest => ?_⟩
    rw [readValue, skipBlanks_append_of_ne_nil (by simp [hw])]
    rw [hw] at hnull htrue hfalse hquote hlist hmap hminus ⊢
    rw [List.cons_append]
    -- the first character decides, and what follows it does not matter
    split
    case h_8 => rfl
    all_goals
      rename_i heq
      obtain ⟨rfl, -⟩ := List.cons.inj heq
    · exact (hnull _ rfl).elim
    · exact (htrue _ rfl).elim
    · exact (hfalse _ rfl).elim
    · exact (hquote _ rfl).elim
    · exact (hlist _ rfl).elim
    · exact (hmap _ rfl).elim
    · exact (hminus _ rfl).elim
  -- no other value is a real
  case h_5 =>
    split at h
    · cases h
    · obtain ⟨_, -, hvalue⟩ := Option.map_eq_some_iff.1 h
      cases hvalue
  case h_6 =>
    split at h
    · cases h
    · obtain ⟨_, -, hvalue⟩ := Option.map_eq_some_iff.1 h
      cases hvalue
  all_goals
    obtain ⟨_, -, hvalue⟩ := Option.map_eq_some_iff.1 h
    cases hvalue

/-- A real is read from its text in front of other things if it is read from it
alone. -/
theorem reads_of_parse?_real {text : String} {x : Double} (h : parse? text = some (.real x)) :
    Reads (.real x) text.toList := by
  obtain ⟨left, hread, hleft⟩ : ∃ left,
      readValue (2 * text.toList.length + 1 + 1) text.toList = some (.real x, left) ∧ skipBlanks left = [] := by
    simp only [parse?, Option.bind_eq_bind, Option.bind_eq_some_iff, Prod.exists] at h
    obtain ⟨d, left, hread, hend⟩ := h
    split at hend
    case h_1 hleft =>
      cases hend
      exact ⟨left, hread, hleft⟩
    case h_2 => cases hend
  obtain ⟨negative, w, hnumber, hrest⟩ := exists_readNumber hread
  have hsome : text.toList ≠ [] := by
    intro hnil
    rw [hnil] at hread
    cases hread
  refine .of_step hsome fun fuel rest _ hend => ⟨left ++ rest, ?_, skipBlanks_append_of_eq_nil hleft rest⟩
  rw [hrest, readNumber_append hend hnumber]

/-! ## Lists -/

theorem readsItems_singleton (h : Reads d w) : ReadsItems [d] w := by
  intro fuel taken rest hfuel
  obtain ⟨fuel, rfl⟩ := Nat.exists_eq_add_one.2 (Nat.zero_lt_of_lt hfuel)
  obtain ⟨left, hread, hleft⟩ := h fuel (']' :: rest) (by omega) isEnd_bracket
  have hclose : skipBlanks left = ']' :: rest := hleft
  rw [readItems, hread]
  simp only [Option.bind_eq_bind, Option.bind_some, hclose, List.reverse_cons]
  rfl

theorem readsItems_cons {items : List Document} (h : Reads d w) (hitems : ReadsItems items v) :
    ReadsItems (d :: items) (w ++ ',' :: v) := by
  intro fuel taken rest hfuel
  rw [List.length_append, List.length_cons] at hfuel
  obtain ⟨fuel, rfl⟩ := Nat.exists_eq_add_one.2 (Nat.zero_lt_of_lt hfuel)
  obtain ⟨left, hread, hleft⟩ := h fuel (',' :: (v ++ ']' :: rest)) (by omega) isEnd_comma
  have hcomma : skipBlanks left = ',' :: (v ++ ']' :: rest) := hleft
  rw [List.append_assoc, List.cons_append, readItems, hread]
  simp only [Option.bind_eq_bind, Option.bind_some, hcomma]
  rw [hitems fuel (d :: taken) rest (by omega), List.reverse_cons, List.append_assoc]
  rfl

/-- No item begins with the bracket that ends a list. -/
theorem readItems_bracket (fuel : Nat) (taken : List Document) : readItems fuel taken (']' :: rest) = none := by
  rcases fuel with _ | _ | fuel <;> rfl

/-- A list is read from the brackets around the text of its items. -/
theorem ReadsItems.reads {items : List Document} (h : ReadsItems items w) :
    Reads (.list items) ('[' :: (w ++ [']'])) := by
  refine .of_step (List.cons_ne_nil _ _) fun fuel rest hfuel _ => ⟨rest, ?_, rfl⟩
  simp only [List.length_cons, List.length_append, List.length_nil] at hfuel
  have hitems := h fuel [] rest (by omega)
  have hbracket : skipBlanks ('[' :: (w ++ ']' :: rest)) = '[' :: (w ++ ']' :: rest) := rfl
  have htext : '[' :: (w ++ [']']) ++ rest = '[' :: (w ++ ']' :: rest) := by simp
  rw [htext, readValue, hbracket]
  simp only
  rw [← readItems_skipBlanks] at hitems
  split
  case h_1 hclose =>
    rw [hclose, readItems_bracket] at hitems
    cases hitems
  case h_2 =>
    rw [hitems]
    rfl

theorem reads_list_nil : Reads (.list []) ['[', ']'] :=
  .of_step (List.cons_ne_nil _ _) fun _ rest _ _ => ⟨rest, rfl, rfl⟩

/-! ## Maps -/

section Member

variable {key : String} {value : Document} {taken : List (String × Document)} {left next : List Char}

/-- Behind a member and a comma there are more members. -/
theorem readMembers_comma (hvalue : readValue fuel rest = some (value, left)) (hleft : skipBlanks left = ',' :: next) :
    readMembers (fuel + 1) taken ((stringText key).toList ++ ':' :: rest) =
      readMembers fuel ((key, value) :: taken) next := by
  have hquote : skipBlanks ('"' :: (afterQuote key ++ ':' :: rest)) = '"' :: (afterQuote key ++ ':' :: rest) := rfl
  have hcolon : skipBlanks (':' :: rest) = ':' :: rest := rfl
  rw [toList_stringText, List.cons_append, readMembers, hquote]
  simp only [readString_afterQuote, Option.bind_eq_bind, Option.bind_some, hcolon, hvalue, hleft]

/-- The last member stands in front of a brace. -/
theorem readMembers_close (hvalue : readValue fuel rest = some (value, left))
    (hleft : skipBlanks left = '\x7d' :: next) :
    readMembers (fuel + 1) taken ((stringText key).toList ++ ':' :: rest) =
      some (((key, value) :: taken).reverse, next) := by
  have hquote : skipBlanks ('"' :: (afterQuote key ++ ':' :: rest)) = '"' :: (afterQuote key ++ ':' :: rest) := rfl
  have hcolon : skipBlanks (':' :: rest) = ':' :: rest := rfl
  rw [toList_stringText, List.cons_append, readMembers, hquote]
  simp only [readString_afterQuote, Option.bind_eq_bind, Option.bind_some, hcolon, hvalue, hleft, Option.pure_def]

end Member

theorem readsMembers_singleton {key : String} (h : Reads d w) :
    ReadsMembers [(key, d)] ((stringText key).toList ++ ':' :: w) := by
  intro fuel taken rest hfuel
  rw [List.length_append, List.length_cons] at hfuel
  obtain ⟨fuel, rfl⟩ := Nat.exists_eq_add_one.2 (Nat.zero_lt_of_lt hfuel)
  obtain ⟨left, hread, hleft⟩ := h fuel ('\x7d' :: rest) (by omega) isEnd_brace
  rw [List.append_assoc, List.cons_append, readMembers_close hread hleft, List.reverse_cons]

theorem readsMembers_cons {key : String} {members : List (String × Document)} (h : Reads d w)
    (hmembers : ReadsMembers members v) :
    ReadsMembers ((key, d) :: members) ((stringText key).toList ++ ':' :: w ++ ',' :: v) := by
  intro fuel taken rest hfuel
  simp only [List.length_append, List.length_cons] at hfuel
  obtain ⟨fuel, rfl⟩ := Nat.exists_eq_add_one.2 (Nat.zero_lt_of_lt hfuel)
  obtain ⟨left, hread, hleft⟩ := h fuel (',' :: (v ++ '\x7d' :: rest)) (by omega) isEnd_comma
  have htext : (stringText key).toList ++ ':' :: w ++ ',' :: v ++ '\x7d' :: rest =
      (stringText key).toList ++ ':' :: (w ++ ',' :: (v ++ '\x7d' :: rest)) := by simp
  rw [htext, readMembers_comma hread hleft, hmembers fuel ((key, d) :: taken) rest (by omega),
    List.reverse_cons, List.append_assoc]
  rfl

theorem ReadsMembers.blank_append {members : List (String × Document)} (h : ReadsMembers members w)
    (hb : IsBlank b) : ReadsMembers members (b ++ w) := by
  intro fuel taken rest hfuel
  rw [List.length_append] at hfuel
  rw [← readMembers_skipBlanks, List.append_assoc, skipBlanks_append hb, readMembers_skipBlanks]
  exact h fuel taken rest (by omega)

/-- No member begins with the brace that ends a map. -/
theorem readMembers_brace (fuel : Nat) (taken : List (String × Document)) :
    readMembers fuel taken ('\x7d' :: rest) = none := by
  rcases fuel with _ | fuel <;> rfl

theorem ReadsMembers.reads {members : List (String × Document)} (h : ReadsMembers members w) :
    Reads (.map members) ('\x7b' :: (w ++ ['\x7d'])) := by
  refine .of_step (List.cons_ne_nil _ _) fun fuel rest hfuel _ => ⟨rest, ?_, rfl⟩
  simp only [List.length_cons, List.length_append, List.length_nil] at hfuel
  have hmembers := h fuel [] rest (by omega)
  have hbrace : skipBlanks ('\x7b' :: (w ++ '\x7d' :: rest)) = '\x7b' :: (w ++ '\x7d' :: rest) := rfl
  have htext : '\x7b' :: (w ++ ['\x7d']) ++ rest = '\x7b' :: (w ++ '\x7d' :: rest) := by simp
  rw [htext, readValue, hbrace]
  simp only
  rw [← readMembers_skipBlanks] at hmembers
  split
  case h_1 hclose =>
    rw [hclose, readMembers_brace] at hmembers
    cases hmembers
  case h_2 =>
    rw [hmembers]
    rfl

theorem reads_map_nil : Reads (.map []) ['\x7b', '\x7d'] :=
  .of_step (List.cons_ne_nil _ _) fun _ rest _ _ => ⟨rest, rfl, rfl⟩

/-! ## Whole documents -/

/-- **Documents that JSON can keep**: integers fit a word, reals are read back
as what they were, and nothing in them is of the other format. -/
inductive Keeps : Document → Prop
  | null : Keeps .null
  | bool (b : Bool) : Keeps (.bool b)
  | integer {n : Int} : Int64.minValue.toInt ≤ n → n < UInt64.size → Keeps (.integer n)
  | real {x : Double} : parse? (realText x) = some (.real x) → Keeps (.real x)
  | text (s : String) : Keeps (.text s)
  | list {items : List Document} : (∀ d ∈ items, Keeps d) → Keeps (.list items)
  | map {members : List (String × Document)} : (∀ e ∈ members, Keeps e.2) → Keeps (.map members)

attribute [simp] Keeps.null Keeps.bool Keeps.text

@[simp]
theorem keeps_list {items : List Document} : Keeps (.list items) ↔ ∀ d ∈ items, Keeps d :=
  ⟨fun | .list h => h, .list⟩

@[simp]
theorem keeps_map {members : List (String × Document)} : Keeps (.map members) ↔ ∀ e ∈ members, Keeps e.2 :=
  ⟨fun | .map h => h, .map⟩

/-- Items are read from their texts with commas between them, and blanks around
each. -/
theorem readsItems_intercalate {items : List Document} {texts : List String} {before between after : String}
    (hbefore : IsBlank before.toList) (hbetween : IsBlank between.toList) (hafter : IsBlank after.toList)
    (hsome : items ≠ []) (h : List.Forall₂ (fun d text => Reads d text.toList) items texts) :
    ReadsItems items (before ++ String.intercalate ("," ++ between) texts ++ after).toList := by
  induction h generalizing before with
  | nil => exact absurd rfl hsome
  | @cons d text items texts hd hrest ih =>
    rcases texts with _ | ⟨text', texts⟩
    · obtain rfl : items = [] := by
        cases hrest
        rfl
      rw [String.intercalate_singleton, String.toList_append, String.toList_append]
      exact readsItems_singleton ((hd.blank_append hbefore).append_blank hafter)
    · have hitems := ih hbetween (by rintro rfl; cases hrest)
      have htext : (before ++ String.intercalate ("," ++ between) (text :: text' :: texts) ++ after).toList =
          before.toList ++ text.toList ++
            ',' :: (between ++ String.intercalate ("," ++ between) (text' :: texts) ++ after).toList := by
        simp [String.intercalate_cons_cons]
      rw [htext]
      exact readsItems_cons (hd.blank_append hbefore) hitems

/-- A text of one member: its key, and a text of its value. -/
def ReadsMember (e : String × Document) (text : String) : Prop :=
  ∃ value, text.toList = (stringText e.1).toList ++ ':' :: value ∧ Reads e.2 value

theorem readsMembers_intercalate {members : List (String × Document)} {texts : List String}
    {before between after : String} (hbefore : IsBlank before.toList) (hbetween : IsBlank between.toList)
    (hafter : IsBlank after.toList) (hsome : members ≠ []) (h : List.Forall₂ ReadsMember members texts) :
    ReadsMembers members (before ++ String.intercalate ("," ++ between) texts ++ after).toList := by
  induction h generalizing before with
  | nil => exact absurd rfl hsome
  | @cons e text members texts he hrest ih =>
    obtain ⟨value, hvalue, hread⟩ := he
    -- behind the last member comes what ends them all, behind the others a comma
    rcases texts with _ | ⟨text', texts⟩
    · obtain rfl : members = [] := by
        cases hrest
        rfl
      have htext : (before ++ String.intercalate ("," ++ between) [text] ++ after).toList =
          before.toList ++ ((stringText e.1).toList ++ ':' :: (value ++ after.toList)) := by
        simp [hvalue]
      rw [htext]
      exact (readsMembers_singleton (hread.append_blank hafter)).blank_append hbefore
    · have hmembers := ih hbetween (by rintro rfl; cases hrest)
      have htext : (before ++ String.intercalate ("," ++ between) (text :: text' :: texts) ++ after).toList =
          before.toList ++ ((stringText e.1).toList ++ ':' :: value ++
            ',' :: (between ++ String.intercalate ("," ++ between) (text' :: texts) ++ after).toList) := by
        simp [String.intercalate_cons_cons, hvalue]
      rw [htext]
      exact (readsMembers_cons hread hmembers).blank_append hbefore

/-! ## Compact and pretty -/

theorem compactItems_eq (items : List Document) : compactItems items = items.map compact := by
  induction items with
  | nil => rw [compactItems, List.map_nil]
  | cons d items ih => rw [compactItems, ih, List.map_cons]

theorem compactMembers_eq (members : List (String × Document)) :
    compactMembers members = members.map fun e => stringText e.1 ++ ":" ++ compact e.2 := by
  induction members with
  | nil => rw [compactMembers, List.map_nil]
  | cons e members ih => rw [compactMembers, ih, List.map_cons]

theorem prettyItems_eq (level : Nat) (items : List Document) :
    prettyItems level items = items.map (prettyAt level) := by
  induction items with
  | nil => rw [prettyItems, List.map_nil]
  | cons d items ih => rw [prettyItems, ih, List.map_cons]

theorem prettyMembers_eq (level : Nat) (members : List (String × Document)) :
    prettyMembers level members = members.map fun e => stringText e.1 ++ ": " ++ prettyAt level e.2 := by
  induction members with
  | nil => rw [prettyMembers, List.map_nil]
  | cons e members ih => rw [prettyMembers, ih, List.map_cons]

theorem isBlank_empty : IsBlank "".toList := nofun

theorem isBlank_newline (level : Nat) : IsBlank (newline level).toList := by
  intro c hc
  rw [newline, String.toList_append, List.mem_append] at hc
  rcases hc with hc | hc
  · exact .inr (List.mem_singleton.1 hc)
  · rw [String.toList_ofList] at hc
    exact .inl (List.eq_of_mem_replicate hc)

/-- **What is written without blanks is read as what it was**, by induction on
the document. -/
theorem reads_compact (h : Keeps d) : Reads d (compact d).toList := by
  induction h with
  | null => exact reads_null
  | bool b => exact reads_bool b
  | integer hleast hgreatest => exact reads_integer hleast hgreatest
  | real hread => exact reads_of_parse?_real hread
  | text s => exact reads_text s
  | @list items _ ih =>
    rcases eq_or_ne items [] with rfl | hsome
    · exact reads_list_nil
    · have htexts : List.Forall₂ (fun d text => Reads d text.toList) items (compactItems items) := by
        rw [compactItems_eq]
        exact List.forall₂_map_right_iff.2 (List.forall₂_same.2 ih)
      have hitems := readsItems_intercalate isBlank_empty isBlank_empty isBlank_empty hsome htexts
      have htext : (compact (.list items)).toList =
          '[' :: (("" ++ String.intercalate ("," ++ "") (compactItems items) ++ "").toList ++ [']']) := by
        simp [compact]
      exact htext ▸ hitems.reads
  | @map members _ ih =>
    rcases eq_or_ne members [] with rfl | hsome
    · exact reads_map_nil
    · have htexts : List.Forall₂ ReadsMember members (compactMembers members) := by
        rw [compactMembers_eq]
        refine List.forall₂_map_right_iff.2 (List.forall₂_same.2 fun e he => ⟨_, ?_, ih e he⟩)
        simp
      have hmembers := readsMembers_intercalate isBlank_empty isBlank_empty isBlank_empty hsome htexts
      have htext : (compact (.map members)).toList =
          '\x7b' :: (("" ++ String.intercalate ("," ++ "") (compactMembers members) ++ "").toList ++ ['\x7d']) := by
        simp [compact]
      exact htext ▸ hmembers.reads

theorem reads_prettyAt (h : Keeps d) (level : Nat) : Reads d (prettyAt level d).toList := by
  induction h generalizing level with
  | null => exact reads_null
  | bool b => exact reads_bool b
  | integer hleast hgreatest => exact reads_integer hleast hgreatest
  | real hread => exact reads_of_parse?_real hread
  | text s => exact reads_text s
  | @list items _ ih =>
    rcases items with _ | ⟨d, items⟩
    · rw [prettyAt]
      exact reads_list_nil
    · have htexts : List.Forall₂ (fun d text => Reads d text.toList) (d :: items)
          (prettyItems (level + 1) (d :: items)) := by
        rw [prettyItems_eq]
        exact List.forall₂_map_right_iff.2 (List.forall₂_same.2 fun d hd => ih d hd (level + 1))
      -- items stand one level deeper, and the bracket that ends them does not
      have hitems := readsItems_intercalate (isBlank_newline (level + 1)) (isBlank_newline (level + 1))
        (isBlank_newline level) (List.cons_ne_nil d items) htexts
      have htext : (prettyAt level (.list (d :: items))).toList =
          '[' :: ((newline (level + 1) ++ String.intercalate ("," ++ newline (level + 1))
            (prettyItems (level + 1) (d :: items)) ++ newline level).toList ++ [']']) := by
        simp [prettyAt]
      exact htext ▸ hitems.reads
  | @map members _ ih =>
    rcases members with _ | ⟨e, members⟩
    · rw [prettyAt]
      exact reads_map_nil
    · have htexts : List.Forall₂ ReadsMember (e :: members) (prettyMembers (level + 1) (e :: members)) := by
        rw [prettyMembers_eq]
        refine List.forall₂_map_right_iff.2 (List.forall₂_same.2 fun e he => ⟨_, ?_,
          (ih e he (level + 1)).blank_append (b := [' ']) ?_⟩)
        · simp
        · simp [IsBlank]
      have hmembers := readsMembers_intercalate (isBlank_newline (level + 1)) (isBlank_newline (level + 1))
        (isBlank_newline level) (List.cons_ne_nil e members) htexts
      have htext : (prettyAt level (.map (e :: members))).toList =
          '\x7b' :: ((newline (level + 1) ++ String.intercalate ("," ++ newline (level + 1))
            (prettyMembers (level + 1) (e :: members)) ++ newline level).toList ++ ['\x7d']) := by
        simp [prettyAt]
      exact htext ▸ hmembers.reads

/-- **Documents come back from JSON**, however they were written. -/
theorem parse?_compact (h : Keeps d) : parse? (compact d) = some d := parse?_of_reads (reads_compact h)

theorem parse?_pretty (h : Keeps d) : parse? (pretty d) = some d := parse?_of_reads (reads_prettyAt h 0)

end Json

end TypedTables

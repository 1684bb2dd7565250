import TypedTables.Proofs.Source.Files
import TypedTables.Proofs.Source.Legality
/-!
# TypedTables — names in their places

A second reader of generated files. It looks at each line letter by letter, passes
over comments and literals, and takes down every word that stands where a name has
to stand: behind a point, a comma, an opening bracket or a word that introduces a
name, or before a semicolon. All that it finds in what is generated is legal.
-/

namespace TypedTables

namespace SourceReader

/-- A letter of a word, or of the mark before a raw one. -/
def isLetter (c : Char) : Bool := Identifier.isPart c || c == '#'

/-- Signs behind which a name stands. -/
def openers : List Char := ['.', '(', '[', ',']

/-- Words behind which a name stands: `mod`, `const`, `fn` and `for`. -/
def introducers : List (List Char) := [['m', 'o', 'd'], ['c', 'o', 'n', 's', 't'], ['f', 'n'], ['f', 'o', 'r']]

/-- **Where a reader is in a line.** -/
inductive Place
  /-- Between words, and whether the next one stands where a name does. -/
  | code (isNamed : Bool)
  /-- In a word, whose letters so far are these. -/
  | word (isNamed : Bool) (letters : List Char)
  | literal
  /-- Behind a backslash in a literal. -/
  | escape

namespace Place

/-- The place behind a sign. A blank does not matter. -/
def behind (isNamed : Bool) (c : Char) : Place :=
  if c == ' ' then .code isNamed else if c == '"' then .literal else .code (openers.contains c)

/-- The place behind a character. -/
def turn : Place → Char → Place
  | .code isNamed, c => if isLetter c then .word isNamed [c] else behind isNamed c
  | .word isNamed letters, c =>
    if isLetter c then .word isNamed (letters ++ [c]) else behind (introducers.contains letters) c
  | .literal, c => if c == '"' then .code false else if c == '\\' then .escape else .literal
  | .escape, _ => .literal

/-- The name that a character ends, by its letters. -/
def ended : Place → Char → List (List Char)
  | .word isNamed letters, c => if !isLetter c && (isNamed || c == ';') then [letters] else []
  | _, _ => []

/-- The place behind some characters. -/
def after : Place → List Char → Place
  | place, [] => place
  | place, c :: cs => after (place.turn c) cs

/-- The names that some characters end. -/
def found : Place → List Char → List (List Char)
  | _, [] => []
  | place, c :: cs => place.ended c ++ found (place.turn c) cs

/-- The name that the end of a line ends. -/
def last : Place → List (List Char)
  | .word true letters => [letters]
  | _ => []

/-- The names that are found from a place on. -/
def namesIn (place : Place) (text : String) : List String :=
  (place.found text.toList ++ (place.after text.toList).last).map String.ofList

end Place

/-- Whether there is nothing but a comment in a line. -/
def isComment (line : String) : Bool := (line.toList.dropWhile (· == ' ')).take 2 == ['/', '/']

/-- **The names in a line.** -/
def names (line : String) : List String := if isComment line then [] else (Place.code false).namesIn line

example : names "    model.r#type = row.get(TYPE)?;" = ["r#type", "get", "TYPE"] := by decide +kernel

/-! ## Reading on

Code that is the same for all models is read by evaluation, letter by letter. -/

open Naming (IsLegal)

variable {place next : Place} {rest line : String} {c : Char} {cs : List Char} {ws : List (List Char)}

/-- The words of the language by their letters, which fixed words are compared with. -/
def keywordLetters : List (List Char) :=
  [['a', 's'], ['b', 'r', 'e', 'a', 'k'], ['c', 'o', 'n', 's', 't'], ['c', 'o', 'n', 't', 'i', 'n', 'u', 'e'],
    ['c', 'r', 'a', 't', 'e'], ['e', 'l', 's', 'e'], ['e', 'n', 'u', 'm'], ['e', 'x', 't', 'e', 'r', 'n'],
    ['f', 'a', 'l', 's', 'e'], ['f', 'n'], ['f', 'o', 'r'], ['i', 'f'], ['i', 'm', 'p', 'l'], ['i', 'n'],
    ['l', 'e', 't'], ['l', 'o', 'o', 'p'], ['m', 'a', 't', 'c', 'h'], ['m', 'o', 'd'], ['m', 'o', 'v', 'e'],
    ['m', 'u', 't'], ['p', 'u', 'b'], ['r', 'e', 'f'], ['r', 'e', 't', 'u', 'r', 'n'], ['s', 'e', 'l', 'f'],
    ['S', 'e', 'l', 'f'], ['s', 't', 'a', 't', 'i', 'c'], ['s', 't', 'r', 'u', 'c', 't'], ['s', 'u', 'p', 'e', 'r'],
    ['t', 'r', 'a', 'i', 't'], ['t', 'r', 'u', 'e'], ['t', 'y', 'p', 'e'], ['u', 'n', 's', 'a', 'f', 'e'],
    ['u', 's', 'e'], ['w', 'h', 'e', 'r', 'e'], ['w', 'h', 'i', 'l', 'e'], ['a', 's', 'y', 'n', 'c'],
    ['a', 'w', 'a', 'i', 't'], ['d', 'y', 'n'], ['a', 'b', 's', 't', 'r', 'a', 'c', 't'],
    ['b', 'e', 'c', 'o', 'm', 'e'], ['b', 'o', 'x'], ['d', 'o'], ['f', 'i', 'n', 'a', 'l'], ['m', 'a', 'c', 'r', 'o'],
    ['o', 'v', 'e', 'r', 'r', 'i', 'd', 'e'], ['p', 'r', 'i', 'v'], ['t', 'y', 'p', 'e', 'o', 'f'],
    ['u', 'n', 's', 'i', 'z', 'e', 'd'], ['v', 'i', 'r', 't', 'u', 'a', 'l'], ['y', 'i', 'e', 'l', 'd'],
    ['t', 'r', 'y'], ['g', 'e', 'n']]

theorem languageWords_eq : Naming.languageWords = keywordLetters.map String.ofList := rfl

/-- Whether letters make a plain name. -/
def isPlain (w : List Char) : Bool := Identifier.isValidChars w && !keywordLetters.contains w && w != ['_']

theorem isLegal_of_isPlain {w : List Char} (h : isPlain w = true) : IsLegal (String.ofList w) := by
  simp only [isPlain, Bool.and_eq_true, Bool.not_eq_true', bne_iff_ne] at h
  obtain ⟨⟨hvalid, hkeyword⟩, hne⟩ := h
  refine .plain ⟨?_, fun hmem => ?_, fun hsame => hne ?_⟩
  · rwa [Identifier.isValid, String.toList_ofList]
  · rw [languageWords_eq] at hmem
    obtain ⟨v, hv, hvw⟩ := List.mem_map.1 hmem
    obtain rfl : v = w := String.ofList_injective hvw
    rw [List.contains_iff_mem.2 hv] at hkeyword
    cases hkeyword
  · exact String.ofList_injective hsame

/-- Fixed names are legal. -/
theorem isLegal_of_all_isPlain (h : ws.all isPlain = true) : ∀ n ∈ ws.map String.ofList, IsLegal n := by
  intro n hn
  obtain ⟨w, hw, rfl⟩ := List.mem_map.1 hn
  exact isLegal_of_isPlain (List.all_eq_true.1 h w hw)

namespace Place

theorem after_append (place : Place) (cs ds : List Char) : place.after (cs ++ ds) = (place.after cs).after ds := by
  induction cs generalizing place with
  | nil => rfl
  | cons c cs ih => rw [List.cons_append, after, after, ih]

theorem found_append (place : Place) (cs ds : List Char) :
    place.found (cs ++ ds) = place.found cs ++ (place.after cs).found ds := by
  induction cs generalizing place with
  | nil => rfl
  | cons c cs ih => rw [List.cons_append, found, found, after, ih, List.append_assoc]

theorem namesIn_append (place : Place) (text rest : String) : place.namesIn (text ++ rest) =
    (place.found text.toList).map String.ofList ++ (place.after text.toList).namesIn rest := by
  rw [namesIn, String.toList_append, found_append, after_append, List.append_assoc, List.map_append]
  rfl

/-- **Characters that end no name**, and the place behind them. -/
structure Skips (place : Place) (cs : List Char) (next : Place) : Prop where
  found_eq : place.found cs = []
  after_eq : place.after cs = next

theorem Skips.nil (place : Place) : place.Skips [] place := ⟨rfl, rfl⟩

theorem Skips.cons (hended : place.ended c = []) (h : (place.turn c).Skips cs next) : place.Skips (c :: cs) next where
  found_eq := by rw [found, hended, h.found_eq, List.append_nil]
  after_eq := h.after_eq

theorem Skips.append {middle : Place} (h : place.Skips cs middle) {ds : List Char} (hrest : middle.Skips ds next) :
    place.Skips (cs ++ ds) next where
  found_eq := by rw [found_append, h.found_eq, h.after_eq, hrest.found_eq, List.append_nil]
  after_eq := by rw [after_append, h.after_eq, hrest.after_eq]

/-- What is skipped does not matter. -/
theorem Skips.namesIn_eq {text : String} (h : place.Skips text.toList next) (rest : String) :
    place.namesIn (text ++ rest) = next.namesIn rest := by
  rw [namesIn_append, h.found_eq, h.after_eq]
  rfl

/-- Whether all names that some characters end are plain. -/
def admits (place : Place) (cs : List Char) : Bool := (place.found cs).all isPlain

def isCode : Place → Bool
  | .code _ => true
  | _ => false

/-- Outside literals, where no name stands. -/
def isUnnamed : Place → Bool
  | .code isNamed | .word isNamed _ => !isNamed
  | .literal | .escape => false

theorem exists_eq_code (h : place.isCode = true) : ∃ isNamed, place = .code isNamed := by
  cases place with
  | code isNamed => exact ⟨isNamed, rfl⟩
  | _ => cases h

/-- **A text that only legal names are found in**, from a place on. -/
structure Passes (place : Place) (text : String) : Prop where
  isLegal : ∀ n ∈ place.namesIn text, IsLegal n

/-- Code that is written as it stands is read, and then what comes behind it. -/
theorem Passes.code (h : place.admits cs = true) (hrest : (place.after cs).Passes rest) :
    place.Passes (String.ofList cs ++ rest) where
  isLegal := by
    intro n hn
    rw [namesIn_append, String.toList_ofList, List.mem_append] at hn
    exact hn.elim (isLegal_of_all_isPlain h n) (hrest.isLegal n)

/-- Whether a line can end with some characters. -/
def admitsLast (place : Place) (cs : List Char) : Bool := place.admits cs && (place.after cs).last.all isPlain

theorem Passes.last (h : place.admitsLast cs = true) : place.Passes (String.ofList cs) where
  isLegal := by
    rw [namesIn, String.toList_ofList]
    exact isLegal_of_all_isPlain (List.all_append.trans h)

end Place

/-- Whether characters start with a sign. -/
def startApart (cs : List Char) : Bool := cs.head?.any fun c => !isLetter c

/-- **What can stand behind a name**: a sign, and from it on legal names alone. -/
structure Follows (text : String) : Prop where
  apart : startApart text.toList = true
  passes : (Place.code false).Passes text

theorem startApart_append (h : startApart cs = true) (rest : String) :
    startApart (String.ofList cs ++ rest).toList = true := by
  obtain ⟨c, hc, hsign⟩ := (Option.any_eq_true _ _).1 h
  rw [startApart, String.toList_append, String.toList_ofList, List.head?_append, hc]
  exact hsign

theorem Follows.code (h : (startApart cs && (Place.code false).admits cs) = true)
    (hrest : ((Place.code false).after cs).Passes rest) : Follows (String.ofList cs ++ rest) := by
  obtain ⟨hapart, hadmits⟩ := Bool.and_eq_true_iff.1 h
  exact ⟨startApart_append hapart rest, .code hadmits hrest⟩

theorem Follows.last (h : (startApart cs && (Place.code false).admitsLast cs) = true) :
    Follows (String.ofList cs) := by
  obtain ⟨hapart, hadmits⟩ := Bool.and_eq_true_iff.1 h
  exact ⟨by rwa [String.toList_ofList], .last hadmits⟩

/-! ## Names -/

/-- **A legal name is a word** that introduces none. -/
theorem isLetter_of_isLegal {name : String} (h : IsLegal name) :
    (∀ c ∈ name.toList, isLetter c = true) ∧ name.toList ≠ [] ∧ name.toList ∉ introducers := by
  cases h with
  | plain h =>
    have hkeywords : ∀ w ∈ introducers, w ∈ keywordLetters := by decide
    refine ⟨fun c hc => Bool.or_eq_true_iff.2 (.inl (Identifier.isWord_of_isValid h.isValid c hc)), fun hnil => ?_,
      fun hmem => h.notMem_languageWords ?_⟩
    · obtain rfl := String.toList_eq_nil_iff.1 hnil
      exact absurd h.isValid (by decide)
    · rw [languageWords_eq]
      exact List.mem_map.2 ⟨_, hkeywords _ hmem, String.ofList_toList⟩
  | @raw word h _ =>
    have hall : keywordLetters.all (fun w => w.all isLetter) = true := by decide +kernel
    rw [languageWords_eq] at h
    obtain ⟨w, hw, rfl⟩ := List.mem_map.1 h
    have hletters : (Naming.raw (String.ofList w)).toList = 'r' :: '#' :: w := by
      have hmark : "r#".toList = ['r', '#'] := rfl
      rw [Naming.raw, String.toList_append, hmark, String.toList_ofList]
      rfl
    rw [hletters]
    -- no word that introduces a name has the mark in it
    refine ⟨List.forall_mem_cons.2 ⟨rfl, List.forall_mem_cons.2 ⟨rfl, ?_⟩⟩, List.cons_ne_nil _ _, ?_⟩
    · exact List.all_eq_true.1 (List.all_eq_true.1 hall w hw)
    · simp [introducers]

namespace Place

/-- A word is read letter by letter. -/
theorem skips_word (isNamed : Bool) (letters : List Char) (h : ∀ c ∈ cs, isLetter c = true) :
    (word isNamed letters).Skips cs (word isNamed (letters ++ cs)) := by
  induction cs generalizing letters with
  | nil =>
    rw [List.append_nil]
    exact .nil _
  | cons c cs ih =>
    obtain ⟨hc, hcs⟩ := List.forall_mem_cons.1 h
    have hrest := ih (letters ++ [c]) hcs
    rw [List.append_assoc, List.singleton_append] at hrest
    refine .cons ?_ ?_
    · rw [ended, hc]
      rfl
    · rwa [turn, if_pos hc]

theorem skips_name {name : String} (isNamed : Bool) (hne : name.toList ≠ [])
    (h : ∀ c ∈ name.toList, isLetter c = true) : (Place.code isNamed).Skips name.toList (word isNamed name.toList) := by
  obtain ⟨c, cs, hchars⟩ := List.exists_cons_of_ne_nil hne
  rw [hchars] at h ⊢
  obtain ⟨hc, hcs⟩ := List.forall_mem_cons.1 h
  refine .cons rfl ?_
  rw [turn, if_pos hc]
  exact skips_word isNamed [c] hcs

/-- **A name ends where a sign follows.** -/
theorem Passes.name {name : String} (hplace : place.isCode = true) (hname : IsLegal name) (hrest : Follows rest) :
    place.Passes (name ++ rest) where
  isLegal := by
    obtain ⟨hletters, hne, hnone⟩ := isLetter_of_isLegal hname
    obtain ⟨isNamed, rfl⟩ := exists_eq_code hplace
    obtain ⟨c, hc, hsign⟩ := (Option.any_eq_true _ _).1 hrest.apart
    obtain ⟨cs, hcs⟩ := List.head?_eq_some_iff.1 hc
    have hsign : isLetter c = false := by simpa using hsign
    -- behind the sign the reader is where it would be without the name
    have hturn : (word isNamed name.toList).turn c = (Place.code false).turn c := by
      have hintroduces : introducers.contains name.toList = false :=
        Bool.eq_false_iff.2 fun h => hnone (List.contains_iff_mem.1 h)
      rw [turn, turn, hsign, hintroduces]
      rfl
    have hends : ∀ w ∈ (word isNamed name.toList).ended c, w = name.toList := by
      intro w hw
      rw [ended] at hw
      split at hw
      · exact List.mem_singleton.1 hw
      · cases hw
    have hsplit : (word isNamed name.toList).namesIn rest =
        ((word isNamed name.toList).ended c).map String.ofList ++ (Place.code false).namesIn rest := by
      rw [namesIn, namesIn, hcs, found, found, after, after, hturn, ← List.map_append, List.append_assoc]
      rfl
    intro n hn
    rw [(skips_name isNamed hne hletters).namesIn_eq, hsplit, List.mem_append] at hn
    rcases hn with hn | hn
    · obtain ⟨w, hw, rfl⟩ := List.mem_map.1 hn
      rwa [hends w hw, String.ofList_toList]
    · exact hrest.passes.isLegal n hn

/-! ## Literals -/

theorem skips_literal (h : ∀ c ∈ cs, c ≠ '"' ∧ c ≠ '\\') : literal.Skips cs literal := by
  induction cs with
  | nil => exact .nil _
  | cons c cs ih =>
    obtain ⟨⟨hquote, hbackslash⟩, hcs⟩ := List.forall_mem_cons.1 h
    refine .cons rfl ?_
    rw [turn, beq_eq_false_iff_ne.2 hquote, beq_eq_false_iff_ne.2 hbackslash]
    exact ih hcs


/-- A character that is quoted does not end the literal. -/
theorem skips_quoteChar (c : Char) : literal.Skips (Text.quoteChar c) literal := by
  have hdigits : ∀ n < 16, Nat.digitChar n ≠ '"' ∧ Nat.digitChar n ≠ '\\' := by decide +kernel
  unfold Text.quoteChar
  split
  case h_6 hquote hbackslash _ _ _ =>
    split
    · exact ⟨rfl, rfl⟩
    · split
      · -- the number of the character in braces, none of whose digits ends the literal
        have hmark : literal.Skips ['\\', 'u', '\x7b'] literal := ⟨rfl, rfl⟩
        have hnumber : literal.Skips (Nat.toDigits 16 c.toNat) literal := by
          refine skips_literal fun d hd => ?_
          obtain ⟨n, hn, rfl⟩ := Text.exists_digitChar_of_mem_toDigits hd
          exact hdigits n hn
        exact (hmark.append hnumber).append ⟨rfl, rfl⟩
      · exact skips_literal (List.forall_mem_singleton.2 ⟨hquote, hbackslash⟩)
  all_goals exact ⟨rfl, rfl⟩

theorem skips_flatMap_quoteChar (cs : List Char) : literal.Skips (cs.flatMap Text.quoteChar) literal := by
  induction cs with
  | nil => exact .nil _
  | cons c cs ih =>
    rw [List.flatMap_cons]
    exact (skips_quoteChar c).append ih

/-- **A literal is passed over**, whatever it says. -/
theorem Passes.literal (hplace : place.isCode = true) (s : String) (hrest : (Place.code false).Passes rest) :
    place.Passes (Text.quoted s ++ rest) where
  isLegal := by
    obtain ⟨isNamed, rfl⟩ := exists_eq_code hplace
    have hskips : (Place.code isNamed).Skips (Text.quoted s).toList (.code false) := by
      rw [Text.quoted, String.toList_ofList]
      exact .cons rfl ((skips_flatMap_quoteChar s.toList).append ⟨rfl, rfl⟩)
    rw [hskips.namesIn_eq]
    exact hrest.isLegal

/-! ## Code with names in it -/

/-- Whether some characters lead up to a name or a literal. -/
def leads (place : Place) (cs : List Char) : Bool := place.admits cs && (place.after cs).isCode

theorem Passes.named {name : String} (h : place.leads cs = true) (hname : IsLegal name) (hrest : Follows rest) :
    place.Passes (String.ofList cs ++ (name ++ rest)) :=
  .code (Bool.and_eq_true_iff.1 h).1 (.name (Bool.and_eq_true_iff.1 h).2 hname hrest)

theorem Passes.quoted (h : place.leads cs = true) (s : String) (hrest : (Place.code false).Passes rest) :
    place.Passes (String.ofList cs ++ (Text.quoted s ++ rest)) :=
  .code (Bool.and_eq_true_iff.1 h).1 (.literal (Bool.and_eq_true_iff.1 h).2 s hrest)

end Place

theorem Follows.named {name : String} (h : (startApart cs && (Place.code false).leads cs) = true)
    (hname : IsLegal name) (hrest : Follows rest) : Follows (String.ofList cs ++ (name ++ rest)) := by
  obtain ⟨hapart, hleads⟩ := Bool.and_eq_true_iff.1 h
  exact ⟨startApart_append hapart _, .named hleads hname hrest⟩

theorem Follows.quoted (h : (startApart cs && (Place.code false).leads cs) = true) (s : String)
    (hrest : (Place.code false).Passes rest) : Follows (String.ofList cs ++ (Text.quoted s ++ rest)) := by
  obtain ⟨hapart, hleads⟩ := Bool.and_eq_true_iff.1 h
  exact ⟨startApart_append hapart _, .quoted hleads s hrest⟩

namespace Place

/-! ## Lists and paths -/

/-- The path of the library is passed over. -/
theorem Passes.runtime (hplace : place.isCode = true) (hrest : (Place.code false).Passes rest) :
    place.Passes (Source.runtime ++ ("::" ++ rest)) := by
  obtain ⟨isNamed, rfl⟩ := exists_eq_code hplace
  unfold Source.runtime
  cases isNamed <;> exact .code rfl (.code rfl hrest)

/-- **What can stand in a list**, before a comma or a bracket. -/
def IsItem (item : String) : Prop :=
  ∀ place : Place, place.isCode = true → ∀ rest, Follows rest → place.Passes (item ++ rest)

theorem isItem_of_isLegal {name : String} (h : IsLegal name) : IsItem name :=
  fun _ hplace _ hrest => .name hplace h hrest

theorem isItem_quoted (s : String) : IsItem (Text.quoted s) :=
  fun _ hplace _ hrest => .literal hplace s hrest.passes

/-- **The items of a list** up to its bracket, by induction on them. -/
theorem Passes.items {items : List String} (hplace : place.isCode = true) (h : ∀ item ∈ items, IsItem item) :
    place.Passes (String.intercalate ", " items ++ ("]" ++ ";")) := by
  have hend : Follows ("]" ++ ";") := .code rfl (.last rfl)
  induction items generalizing place with
  | nil =>
    obtain ⟨isNamed, rfl⟩ := exists_eq_code hplace
    rw [String.intercalate_nil, String.empty_append]
    cases isNamed <;> exact .code rfl (.last rfl)
  | cons item items ih =>
    obtain ⟨hitem, hitems⟩ := List.forall_mem_cons.1 h
    rcases items with _ | ⟨next, items⟩
    · rw [String.intercalate_singleton]
      exact hitem place hplace _ hend
    · rw [String.intercalate_cons_cons, String.append_assoc, String.append_assoc]
      exact hitem place hplace _ (.code rfl (ih rfl hitems))

/-- In a path no name is found. -/
theorem exists_skips_path (hplace : place.isUnnamed = true) (hcs : ∀ c ∈ cs, c = ':' ∨ Identifier.isPart c = true) :
    ∃ next, place.Skips cs next ∧ next.isUnnamed = true := by
  induction cs generalizing place with
  | nil => exact ⟨place, .nil _, hplace⟩
  | cons c cs ih =>
    obtain ⟨hc, hcs⟩ := List.forall_mem_cons.1 hcs
    have hturn : place.ended c = [] ∧ (place.turn c).isUnnamed = true := by
      have hletter : Identifier.isPart c = true → isLetter c = true := fun h => Bool.or_eq_true_iff.2 (.inl h)
      cases place with
      | code isNamed =>
        rcases hc with rfl | hpart
        · exact ⟨rfl, rfl⟩
        · rw [turn, if_pos (hletter hpart)]
          exact ⟨rfl, hplace⟩
      | word isNamed letters =>
        obtain rfl : isNamed = false := by simpa [isUnnamed] using hplace
        rcases hc with rfl | hpart
        · exact ⟨rfl, rfl⟩
        · rw [ended, turn, hletter hpart]
          exact ⟨rfl, rfl⟩
      | literal => cases hplace
      | escape => cases hplace
    obtain ⟨next, hrest, hnext⟩ := ih hturn.2 hcs
    exact ⟨next, .cons hturn.1 hrest, hnext⟩

/-- **A path is passed over** up to the separator behind it. -/
theorem Passes.path {path : String} (hplace : place.isUnnamed = true)
    (hpath : ∀ c ∈ path.toList, c = ':' ∨ Identifier.isPart c = true)
    (hrest : (Place.code false).Passes ("::" ++ rest)) : place.Passes (path ++ ("::" ++ rest)) where
  isLegal := by
    have hseparator : ("::" ++ rest).toList = ':' :: ':' :: rest.toList := String.toList_append
    obtain ⟨next, hskips, hnext⟩ := exists_skips_path hplace hpath
    -- the separator ends the last word of the path, in no name's place
    have hsame : next.namesIn ("::" ++ rest) = (Place.code false).namesIn ("::" ++ rest) := by
      rw [namesIn, namesIn, hseparator]
      cases next with
      | code isNamed => rfl
      | word isNamed letters =>
        obtain rfl : isNamed = false := by simpa [isUnnamed] using hnext
        rfl
      | literal => cases hnext
      | escape => cases hnext
    rw [hskips.namesIn_eq, hsame]
    exact hrest.isLegal

end Place

/-! ## Lines -/

/-- **A line in which all names are legal.** -/
def IsLegalLine (line : String) : Prop := ∀ n ∈ names line, IsLegal n

theorem isLegalLine_of_passes (h : (Place.code false).Passes line) : IsLegalLine line := by
  intro n hn
  unfold names at hn
  split at hn
  · cases hn
  · exact h.isLegal n hn

/-- There is no name in a comment. -/
theorem isLegalLine_comment (h : cs.take 2 = ['/', '/']) (text : String) : IsLegalLine (String.ofList cs ++ text) := by
  obtain ⟨ds, rfl⟩ : ∃ ds, cs = '/' :: '/' :: ds :=
    ⟨cs.drop 2, by rw [← List.take_append_drop 2 cs, h]; rfl⟩
  have hcomment : isComment (String.ofList ('/' :: '/' :: ds) ++ text) = true := by
    rw [isComment, String.toList_append, String.toList_ofList]
    rfl
  intro n hn
  rw [names, hcomment] at hn
  cases hn

/-- Blanks before a line do not matter. -/
theorem names_indentLine (level : Nat) (line : String) : names (Code.indentLine level line) = names line := by
  unfold Code.indentLine
  split
  case isTrue h => rw [String.isEmpty_iff.1 h]
  case isFalse =>
    have hblanks (k : Nat) : (Place.code false).Skips (List.replicate k ' ') (.code false) := by
      induction k with
      | zero => exact .nil _
      | succ k ih => exact .cons rfl ih
    have hcomment : isComment (Code.indentation level ++ line) = isComment line := by
      have hall : ∀ c ∈ List.replicate (4 * level) ' ', (c == ' ') = true := fun c hc =>
        beq_iff_eq.2 (List.mem_replicate.1 hc).2
      rw [isComment, isComment, String.toList_append, Code.indentation, String.toList_ofList,
        List.dropWhile_append_of_pos hall]
    have hnames : (Place.code false).namesIn (Code.indentation level ++ line) = (Place.code false).namesIn line := by
      refine Place.Skips.namesIn_eq ?_ line
      rw [Code.indentation, String.toList_ofList]
      exact hblanks _
    rw [names, names, hcomment, hnames]

end SourceReader

/-! ## Steps -/

namespace Code

open SourceReader (IsLegalLine)

/-- **A step that writes down legal names alone.** -/
inductive IsLegal : CodeStep → Prop
  | line {text : String} (h : IsLegalLine text) : IsLegal (.line text)
  | blank : IsLegal .blank
  | block {head : String} {body : Code} (hhead : IsLegalLine (head ++ " \x7b")) (hbody : ∀ step ∈ body, IsLegal step) :
      IsLegal (.block head body)

/-- **So do its lines**, by induction on blocks. -/
theorem isLegalLine_of_mem_runStep {step : CodeStep} (h : IsLegal step) (level : Nat) :
    ∀ l ∈ (runStep level step).1, IsLegalLine l := by
  have hindent : ∀ level t, IsLegalLine t → IsLegalLine (indentLine level t) := fun level t ht n hn =>
    ht n (SourceReader.names_indentLine level t ▸ hn)
  induction h generalizing level with
  | line h => exact List.forall_mem_singleton.2 (hindent level _ h)
  | blank => exact List.forall_mem_singleton.2 (List.forall_mem_nil _)
  | block hhead _ ih =>
    refine List.forall_mem_cons.2 ⟨hindent level _ hhead, fun l hl => ?_⟩
    rcases List.mem_append.1 hl with hl | hl
    · exact forall_mem_run ih _ l hl
    · rw [List.mem_singleton.1 hl]
      exact hindent _ _ (SourceReader.isLegalLine_of_passes (.last rfl))

end Code

namespace Source

open Code (IsLegal)
open SourceReader (IsLegalLine Place isLegalLine_of_passes isLegal_of_isPlain)

variable {m : Model} {o : GeneratorOptions} {f : Field} {name constant : String}

/-! ## Constants

A line is passed over piece by piece. Code that is the same for all models is read by
evaluation; names, literals and paths are read by the rule for what they are. -/

theorem isLegalLine_textLine (hname : Naming.IsLegal name) (value : String) : IsLegalLine (textLine name value) := by
  refine isLegalLine_of_passes ?_
  unfold textLine
  simp only [String.append_assoc]
  exact .named rfl hname <| .quoted rfl value <| .last rfl

/-- A constant that lists what can stand in a list. -/
theorem isLegalLine_listLine {items : List String} (hname : Naming.IsLegal name)
    (h : ∀ item ∈ items, Place.IsItem item) :
    IsLegalLine (codeLine name "&[&str]" ("&[" ++ String.intercalate ", " items ++ "]")) := by
  refine isLegalLine_of_passes ?_
  unfold codeLine
  simp only [String.append_assoc]
  exact .named rfl hname <| .code rfl <| .code rfl <| .code rfl <| .code rfl <| .items rfl h

theorem isLegalLine_literalLine (hname : Naming.IsLegal name) (items : List String) :
    IsLegalLine (codeLine name "&[&str]" (literalList items)) := by
  refine isLegalLine_listLine hname fun item hitem => ?_
  obtain ⟨s, -, rfl⟩ := List.mem_map.1 hitem
  exact Place.isItem_quoted s

/-- The constant of the key, whose value is another constant. -/
theorem isLegalLine_keyLine (hname : Naming.IsLegal name) : IsLegalLine (codeLine "PRIMARY_KEY" "&str" name) := by
  refine isLegalLine_of_passes ?_
  unfold codeLine
  simp only [String.append_assoc]
  exact .code rfl <| .code rfl <| .code rfl <| .code rfl <| .named rfl hname <| .last rfl

/-- A constant of an implementation, if its type and its value are passed over. -/
theorem isLegal_innerConstant {type value : String} (hname : Naming.IsLegal name)
    (htype : ∀ rest, (Place.code false).Passes rest → (Place.code false).Passes (type ++ (" = " ++ rest)))
    (hvalue : (Place.code false).Passes (value ++ ";")) : IsLegal (innerConstant name type value) := by
  refine .line (isLegalLine_of_passes ?_)
  simp only [String.append_assoc]
  exact .named rfl hname <| .code rfl <| htype _ hvalue

/-! ## Fields -/

theorem isLegal_readSteps (hf : Naming.IsLegal (Naming.member f.name)) (hc : Naming.IsLegal constant) :
    ∀ step ∈ readSteps f constant, IsLegal step := by
  unfold readSteps
  simp only [inRuntime, String.append_assoc]
  split
  · refine List.forall_mem_cons.2 ⟨.line (isLegalLine_of_passes ?_), List.forall_mem_singleton.2
      (.block (isLegalLine_of_passes (.code rfl <| .last rfl)) (List.forall_mem_singleton.2
        (.line (isLegalLine_of_passes ?_))))⟩
    · exact .named rfl hc <| .last rfl
    · exact .named rfl hf <| .code rfl <| .runtime rfl <| .named rfl hc <| .last rfl
  · exact List.forall_mem_singleton.2 (.line (isLegalLine_of_passes (.named rfl hf <| .named rfl hc <| .last rfl)))

theorem isLegal_writeSteps (hf : Naming.IsLegal (Naming.member f.name)) (hc : Naming.IsLegal constant) :
    ∀ step ∈ writeSteps f constant, IsLegal step := by
  have hput : IsLegal (.line ("values.put(" ++ (constant ++ (", " ++ (runtime ++ ("::" ++
      ("ToValue::to_value(&" ++ ("self." ++ (Naming.member f.name ++ (")" ++ ");")))))))))) := by
    refine .line (isLegalLine_of_passes ?_)
    exact .named rfl hc <| .code rfl <| .runtime rfl <| .code rfl <| .named rfl hf <| .code rfl <| .last rfl
  unfold writeSteps
  simp only [inRuntime, String.append_assoc]
  split
  · refine List.forall_mem_cons.2 ⟨.line (isLegalLine_of_passes ?_), List.forall_mem_singleton.2
      (.block (isLegalLine_of_passes (.code rfl <| .last rfl)) (List.forall_mem_singleton.2
        (.line (isLegalLine_of_passes ?_))))⟩
    · exact .code rfl <| .runtime rfl <| .code rfl <| .named rfl hf <| .code rfl <| .last rfl
    · exact .named rfl hc <| .code rfl <| .code rfl <| .last rfl
  · split
    · refine List.forall_mem_singleton.2 (.block (isLegalLine_of_passes ?_) (List.forall_mem_singleton.2 hput))
      simp only [String.append_assoc]
      exact .code rfl <| .named rfl hf <| .code rfl <| .last rfl
    · exact List.forall_mem_singleton.2 hput

/-- A field that is named is legal behind a point, and so is its constant. -/
theorem isLegal_of_mem_namedFields (hm : m.HasLegalNames) {p : Field × String} (hp : p ∈ namedFields m) :
    Naming.IsLegal (Naming.member p.1.name) ∧ Naming.IsLegal p.2 := by
  obtain ⟨hfield, hconstant⟩ := List.of_mem_zip hp
  exact ⟨hm.field _ hfield, .plain (hm.constant _ hconstant)⟩

theorem isLegal_member_of_primaryKey? (hm : m.HasLegalNames) (hf : m.primaryKey? = some f) :
    Naming.IsLegal (Naming.member f.name) :=
  hm.field f (List.mem_of_find?_eq_some hf)

/-! ## The implementation -/

/-- The type of a result at the end of a head, if what it holds is passed over. Behind
its comma there is a path where a name could be. -/
theorem passes_resultType {ok : String}
    (hok : ∀ rest, (Place.code true).Passes rest → (Place.code false).Passes (ok ++ (", " ++ rest))) :
    (Place.code false).Passes (resultType ok ++ " \x7b") := by
  unfold resultType
  simp only [inRuntime, String.append_assoc]
  exact .code rfl <| hok _ <| .runtime rfl <| .code rfl <| .code rfl <| .last rfl

theorem isLegal_fromRowStep (hm : m.HasLegalNames) : IsLegal (fromRowStep m) := by
  refine .block (isLegalLine_of_passes ?_) fun step hstep => ?_
  · simp only [inRuntime, String.append_assoc]
    exact .code rfl <| .runtime rfl <| .code rfl <| .code rfl <| passes_resultType fun _ h => .code rfl <| .code rfl h
  simp only [List.mem_append, List.mem_singleton, List.mem_flatMap, List.mem_map] at hstep
  rcases hstep with ((rfl | ⟨p, hp, hstep⟩) | ⟨hook, hhook, rfl⟩) | rfl
  · exact .line (isLegalLine_of_passes (.last rfl))
  · obtain ⟨hf, hc⟩ := isLegal_of_mem_namedFields hm hp
    exact isLegal_readSteps hf hc step hstep
  · refine .line (isLegalLine_of_passes ?_)
    rw [String.append_assoc]
    exact .named rfl (hm.hook hook hhook) <| .last rfl
  · exact .line (isLegalLine_of_passes (.last rfl))

theorem isLegal_toValuesStep (hm : m.HasLegalNames) : IsLegal (toValuesStep m) := by
  refine .block (isLegalLine_of_passes ?_) fun step hstep => ?_
  · simp only [inRuntime, String.append_assoc]
    exact .code rfl <| .runtime rfl <| .code rfl <| .last rfl
  simp only [List.mem_append, List.mem_singleton, List.mem_flatMap] at hstep
  rcases hstep with (rfl | ⟨p, hp, hstep⟩) | rfl
  · refine .line (isLegalLine_of_passes ?_)
    simp only [inRuntime, String.append_assoc]
    exact .code rfl <| .runtime rfl <| .last rfl
  · obtain ⟨hf, hc⟩ := isLegal_of_mem_namedFields hm hp
    exact isLegal_writeSteps hf hc step hstep
  · exact .line (isLegalLine_of_passes (.last rfl))

theorem isLegal_keyStep (hm : m.HasLegalNames) : IsLegal (keyStep m) := by
  refine .block (isLegalLine_of_passes ?_) (List.forall_mem_singleton.2 (.line (isLegalLine_of_passes ?_)))
  · simp only [inRuntime, String.append_assoc]
    exact .code rfl <| .runtime rfl <| .code rfl <| .last rfl
  · simp only [inRuntime, String.append_assoc]
    split
    case h_1 f hf => exact .runtime rfl <| .named rfl (isLegal_member_of_primaryKey? hm hf) <| .last rfl
    case h_2 => exact .runtime rfl <| .last rfl

theorem isLegal_setKeyStep (hm : m.HasLegalNames) : IsLegal (setKeyStep m) := by
  refine .block (isLegalLine_of_passes ?_) (List.forall_mem_cons.2
    ⟨.line (isLegalLine_of_passes ?_), List.forall_mem_singleton.2 (.line (isLegalLine_of_passes (.last rfl)))⟩)
  · simp only [inRuntime, String.append_assoc]
    exact .code rfl <| .runtime rfl <| .code rfl <| .code rfl <| passes_resultType fun _ h => .code rfl <| .code rfl h
  · simp only [inRuntime, String.append_assoc]
    split
    case h_1 f hf =>
      exact .named rfl (isLegal_member_of_primaryKey? hm hf) <| .code rfl <| .runtime rfl <| .last rfl
    case h_2 => exact .last rfl

theorem isLegal_kindConstant (m : Model) : IsLegal (innerConstant "PROVIDER_KIND" (inRuntime "ProviderKind")
    (inRuntime "ProviderKind" ++ "::" ++ kindName m.provider.kind)) := by
  refine isLegal_innerConstant (isLegal_of_isPlain rfl) (fun rest h => ?_) ?_ <;>
    simp only [inRuntime, String.append_assoc]
  · exact .runtime rfl <| .code rfl <| .code rfl h
  · cases m.provider.kind <;> exact .runtime rfl <| .code rfl <| .code rfl <| .code rfl <| .last rfl

/-- **The implementation for a model writes down legal names alone.** -/
theorem isLegal_implStep (hm : m.HasLegalNames) : IsLegal (implStep m) := by
  have hstr : ∀ rest, (Place.code false).Passes rest →
      (Place.code false).Passes ("&\x27static str" ++ (" = " ++ rest)) := fun _ h => .code rfl <| .code rfl h
  have hstrs : ∀ rest, (Place.code false).Passes rest →
      (Place.code false).Passes ("&\x27static [&\x27static str]" ++ (" = " ++ rest)) :=
    fun _ h => .code rfl <| .code rfl h
  have htext : ∀ s, (Place.code false).Passes (Text.quoted s ++ ";") := fun s => .literal rfl s (.last rfl)
  refine .block (isLegalLine_of_passes ?_) ?_
  · -- the struct stands behind `for`, without a mark
    simp only [inRuntime, String.append_assoc]
    exact .code rfl <| .runtime rfl <| .code rfl <| .named rfl (.plain hm.struct) <| .last rfl
  · simp only [List.forall_mem_cons]
    have hsame : ∀ name, Naming.IsLegal name → (Place.code false).Passes (name ++ ";") := fun _ h =>
      .name rfl h (.last rfl)
    -- its constants that hold no text are called like those of the module
    exact ⟨isLegal_innerConstant (isLegal_of_isPlain rfl) hstr (htext _),
      isLegal_innerConstant (isLegal_of_isPlain rfl) hstr (hsame _ (isLegal_of_isPlain rfl)),
      isLegal_innerConstant (isLegal_of_isPlain rfl) hstrs (hsame _ (isLegal_of_isPlain rfl)),
      isLegal_innerConstant (isLegal_of_isPlain rfl) hstr (hsame _ (isLegal_of_isPlain rfl)),
      isLegal_innerConstant (isLegal_of_isPlain rfl) hstr (htext _), isLegal_kindConstant m,
      isLegal_innerConstant (isLegal_of_isPlain rfl) hstr (hsame _ (isLegal_of_isPlain rfl)),
      isLegal_innerConstant (isLegal_of_isPlain rfl) hstrs (hsame _ (isLegal_of_isPlain rfl)),
      .blank, isLegal_fromRowStep hm, .blank, isLegal_toValuesStep hm, .blank, isLegal_keyStep hm, .blank,
      isLegal_setKeyStep hm, List.forall_mem_nil _⟩

/-! ## Modules -/

theorem isLegal_keyConstant? (hm : m.HasLegalNames) (hkey : keyConstant? m = some name) : Naming.IsLegal name := by
  obtain ⟨p, hp, rfl⟩ := Option.map_eq_some_iff.1 hkey
  exact (isLegal_of_mem_namedFields hm (List.mem_of_find?_eq_some hp)).2

theorem isLegal_constantSteps (hm : m.HasLegalNames) (o : GeneratorOptions) :
    ∀ step ∈ constantSteps m o, IsLegal step := by
  have hreserved : ∀ name ∈ Naming.reservedConstants, Naming.IsLegal name := by
    simp only [Naming.reservedConstants, List.forall_mem_cons]
    exact ⟨isLegal_of_isPlain rfl, isLegal_of_isPlain rfl, isLegal_of_isPlain rfl, isLegal_of_isPlain rfl,
      isLegal_of_isPlain rfl, List.forall_mem_nil _⟩
  have htext : ∀ name ∈ Naming.reservedConstants, ∀ value, IsLegal (textConstant name value) := fun name hname value =>
    .line (isLegalLine_textLine (hreserved name hname) value)
  intro step hstep
  simp only [constantSteps, List.mem_append, List.mem_cons, List.mem_map, List.not_mem_nil, or_false] at hstep
  rcases hstep with (rfl | ⟨p, hp, rfl⟩) | rfl | rfl | rfl | rfl
  · exact htext _ (by decide) _
  · exact .line (isLegalLine_textLine (isLegal_of_mem_namedFields hm hp).2 _)
  · split
    case h_1 name hkey => exact .line (isLegalLine_keyLine (isLegal_keyConstant? hm hkey))
    case h_2 => exact htext _ (by decide) _
  · refine .line (isLegalLine_listLine (hreserved _ (by decide)) fun name hname => ?_)
    exact Place.isItem_of_isLegal (.plain (hm.constant name hname))
  · exact htext _ (by decide) _
  · exact .line (isLegalLine_literalLine (hreserved _ (by decide)) _)

theorem isLegal_entryPointStep (hm : m.HasLegalNames) {entry : String × String} (hentry : entry ∈ entryPoints) :
    IsLegal (entryPointStep m.name entry) := by
  have hmodel : Naming.IsLegal m.name := .plain hm.struct
  have hparameter : Naming.IsLegal (if m.name == "P" then "Q" else "P") := by
    split <;> exact isLegal_of_isPlain rfl
  have hentries : ∀ e ∈ entryPoints, Naming.IsLegal e.1 ∧ Naming.IsLegal e.2 := by
    simp only [entryPoints, List.forall_mem_cons]
    refine ⟨?_, ?_, ?_, ?_, ?_, List.forall_mem_nil _⟩ <;> exact ⟨isLegal_of_isPlain rfl, isLegal_of_isPlain rfl⟩
  obtain ⟨hfunction, hbuilder⟩ := hentries entry hentry
  unfold entryPointStep
  simp only [inRuntime]
  refine .block (isLegalLine_of_passes ?_) (List.forall_mem_singleton.2 (.line (isLegalLine_of_passes ?_)))
  · simp only [String.append_assoc]
    exact .named rfl hfunction <| .named rfl hparameter <| .code rfl <| .runtime rfl <| .code rfl <|
      .named rfl hparameter <| .code rfl <| .runtime rfl <| .name rfl hbuilder <| .named rfl hmodel <|
      .named rfl hparameter <| .code rfl <| .last rfl
  · simp only [String.append_assoc]
    exact .runtime rfl <| .name rfl hbuilder <| .last rfl

theorem isLegal_moduleBody (hs : m.IsSound) (hm : m.HasLegalNames) (o : GeneratorOptions) :
    ∀ step ∈ moduleBody m o, IsLegal step := by
  intro step hstep
  simp only [moduleBody, List.mem_append, List.mem_cons, List.not_mem_nil, or_false] at hstep
  rcases hstep with (((rfl | rfl) | hstep) | rfl | rfl) | hstep
  · -- the path is not looked at, but the struct that ends it is
    refine .line (isLegalLine_of_passes ?_)
    simp only [String.append_assoc]
    have hpath := Naming.isPart_of_isModulePath hs.package_isPath
    exact .code rfl <| .path rfl hpath <| .named rfl (.plain hm.struct) <| .last rfl
  · exact .blank
  · exact isLegal_constantSteps hm o step hstep
  · exact .blank
  · exact isLegal_implStep hm
  · split at hstep
    · rcases mem_spaced hstep with rfl | hstep
      · exact .blank
      · obtain ⟨entry, hentry, rfl⟩ := List.mem_map.1 hstep
        exact isLegal_entryPointStep hm hentry
    · cases hstep

/-- **The module of a model writes down legal names alone.** -/
theorem isLegal_moduleSteps (hs : m.IsSound) (hm : m.HasLegalNames) (o : GeneratorOptions) :
    ∀ step ∈ moduleSteps m o, IsLegal step := by
  rw [moduleSteps_eq]
  refine List.forall_mem_cons.2 ⟨.line ?_, List.forall_mem_singleton.2
    (.block (isLegalLine_of_passes ?_) (isLegal_moduleBody hs hm o))⟩
  · simp only [String.append_assoc]
    exact SourceReader.isLegalLine_comment rfl _
  · rw [String.append_assoc]
    exact .named rfl hm.module <| .last rfl

/-! ## Files -/

variable {p : Provider} {ms : List Model} {r : Registry}

theorem isLegalLine_of_mem_markLines : ∀ l ∈ markLines p ms o, IsLegalLine l := by
  simp only [markLines, String.append_assoc, List.forall_mem_cons]
  exact ⟨SourceReader.isLegalLine_comment rfl _, SourceReader.isLegalLine_comment rfl _,
    isLegalLine_of_passes (.last rfl), List.forall_mem_nil _⟩

theorem isLegalLine_of_mem_schemaLines : ∀ l ∈ schemaLines p ms o, IsLegalLine l := by
  intro l hl
  simp only [schemaLines, List.mem_cons, List.mem_append, List.mem_map, List.not_mem_nil, or_false] at hl
  rcases hl with rfl | (⟨a, -, rfl⟩ | rfl | rfl | rfl | rfl) | ⟨s, -, rfl⟩ | rfl
  · exact isLegalLine_textLine (isLegal_of_isPlain rfl) _
  · exact isLegalLine_textLine (isLegal_of_isPlain rfl) _
  · exact isLegalLine_of_passes (.last rfl)
  · exact isLegalLine_literalLine (isLegal_of_isPlain rfl) _
  · exact isLegalLine_of_passes (.last rfl)
  · exact isLegalLine_of_passes (.last rfl)
  · intro n hn
    rw [SourceReader.names_indentLine] at hn
    exact isLegalLine_of_passes (.literal rfl s (.last rfl)) n hn
  · exact isLegalLine_of_passes (.last rfl)

theorem isLegalLine_of_mem_moduleLines (hms : ∀ m ∈ ms, m.IsSound ∧ m.HasLegalNames) :
    ∀ l ∈ moduleLines ms o, IsLegalLine l := by
  intro l hl
  obtain ⟨m, hm, hl⟩ := List.mem_flatMap.1 hl
  rcases List.mem_cons.1 hl with rfl | hl
  · exact isLegalLine_of_passes (.last rfl)
  · obtain ⟨hs, hlegal⟩ := hms m hm
    have hsteps := isLegal_moduleSteps hs hlegal o
    exact Code.forall_mem_run (fun step hstep => Code.isLegalLine_of_mem_runStep (hsteps step hstep)) 0 l hl

/-- **All names in a generated file are legal**, below its header. -/
theorem isLegalLine_of_mem_generate (hs : r.IsSound) (hn : r.IsNamed) (hlegal : ∀ m ∈ r.models.values, m.HasLegalNames)
    {f : SourceFile} (hf : f ∈ generate r o) : ∀ l ∈ f.linesBelow o, IsLegalLine l := by
  obtain ⟨p, hp, -, rfl⟩ := mem_generate.1 hf
  have hms : ∀ m ∈ r.modelsOf p.name, m.IsSound ∧ m.HasLegalNames := by
    intro m hm
    have hvalue := (Registry.mem_modelsOf.1 hm).1
    exact ⟨hs.models_areSound m hvalue, hlegal m hvalue⟩
  rw [linesBelow_fileOf hs hn hp]
  intro l hl
  simp only [List.mem_append, List.mem_cons] at hl
  rcases hl with hl | rfl | hl | hl
  · exact isLegalLine_of_mem_markLines l hl
  · exact isLegalLine_of_passes (.last rfl)
  · exact isLegalLine_of_mem_schemaLines l hl
  · exact isLegalLine_of_mem_moduleLines hms l hl

end Source

open Naming (IsLegal snakeCase)

/-- **Generated names are legal.** Every model that is extracted has legal names: its
struct and the constants of its columns are called by plain ones, its module and
its members by plain ones or by marked keywords. In the files that are generated,
whatever the options, only legal names stand where a name does. Snake case is its
own snake case, and that of an identifier is one. -/
theorem generated_names_are_legal {d : Declarations} {r : Registry} (h : extract d = .ok r) :
    (∀ m ∈ r.models.values, m.HasLegalNames) ∧
      (∀ o, ∀ f ∈ Source.generate r o, ∀ l ∈ f.linesBelow o, ∀ n ∈ SourceReader.names l, IsLegal n) ∧
      (∀ name, snakeCase (snakeCase name) = snakeCase name) ∧
      ∀ name, Identifier.isValid name = true → Identifier.isValid (snakeCase name) = true := by
  have hlegal := hasLegalNames_of_extract h
  refine ⟨hlegal, fun o f hf => ?_, Naming.snakeCase_snakeCase, fun _ => Naming.isValid_snakeCase⟩
  exact Source.isLegalLine_of_mem_generate (isSound_of_extract h) (isNamed_of_extract h) hlegal hf

/-- Models whose modules would be called by keywords, with members that are. -/
def keywordDeclarations : Declarations where
  providers := [⟨"Box", ProviderKind.localRoot, none, none⟩]
  models :=
    [{ name := "Type", packagePath := some "crate::models", provider := some "Box",
        members :=
          [⟨"type", some "i64", some { isPrimaryKey := true, isAutoIncrement := true }, false⟩,
            ⟨"columns", some "String", some {}, false⟩, ⟨"match", none, none, true⟩] },
      { name := "SELF", parent := some "Type" }]

theorem generated_names_are_legal_keywords : ∃ r, extract keywordDeclarations = .ok r ∧
    (r.models.values.map fun m => (m.name, Naming.moduleName m.name)) = [("SELF", "self_model"), ("Type", "r#type")] ∧
    (∀ m ∈ r.models.values, m.fields.map (fun f => Naming.member f.name) = ["r#type", "columns"] ∧
      m.initHooks.map Naming.member = ["r#match"]) ∧
    (∀ m ∈ r.models.values, m.HasLegalNames) ∧
    ∀ f ∈ Source.generate r {}, ∀ l ∈ f.linesBelow {}, ∀ n ∈ SourceReader.names l, IsLegal n := by
  have hok := extract_of_errors_eq_nil
    (show (Extraction.findings keywordDeclarations).errors = [] by decide +kernel)
  obtain ⟨hlegal, hfiles, -⟩ := generated_names_are_legal hok
  exact ⟨_, hok, by decide +kernel, by decide +kernel, hlegal, hfiles {}⟩

end TypedTables

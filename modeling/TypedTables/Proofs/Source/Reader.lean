import Mathlib.Data.List.Triplewise
import TypedTables.Proofs.Source.Code
import TypedTables.Proofs.Text.Quoted
import TypedTables.Text.Blank
/-!
# TypedTables — a reader of generated files

What the lines of a file declare, read without looking at how they were
written: the modules they open, each with the lines of its body and the name
it imports, and the constants they declare, each with the text of its value. A
value is read as a literal, or as a list of literals, up to the semicolon that
ends it.
-/

namespace TypedTables

/-- A module in a file, with its lines as they are further out. -/
structure SourceModule where
  name : String
  body : List String
deriving Repr, DecidableEq

namespace SourceReader

/-- The module that a line opens. -/
def opened? (line : String) : Option String :=
  (line.toList.dropPrefix? "pub mod ".toList).bind fun rest => (rest.dropSuffix? " \x7b".toList).map String.ofList

/-- The name that a line imports, without the path before it. -/
def imported? (line : String) : Option String :=
  (line.toList.dropPrefix? "use ".toList).bind fun rest => (rest.dropSuffix? ";".toList).map fun path =>
    String.ofList (path.reverse.takeWhile (· != ':')).reverse

/-- The constant that a line declares, and what stands behind its name. -/
def declared? (line : String) : Option (String × List Char) :=
  (line.toList.dropPrefix? "pub const ".toList).map fun rest =>
    (String.ofList (rest.takeWhile (· != ':')), rest.dropWhile (· != ':'))

/-- A line one level further out. -/
def outdent (line : String) : String := String.ofList (line.toList.drop 4)

/-- The modules that some lines open. The body of a module goes to the next
brace that stands alone. -/
def modules : List String → List SourceModule
  | [] => []
  | l :: ls =>
    ((opened? l).map fun name => ⟨name, (ls.takeWhile (· != "\x7d")).map outdent⟩).toList ++ modules ls

/-- What stands behind the name of a constant, wherever it is declared, up to
the end of the lines. -/
def declarations (name : String) : List String → List (List Char)
  | [] => []
  | l :: ls =>
    (((declared? l).filter (·.1 == name)).map fun (_, rest) => rest ++ '\n' :: (Code.join ls).toList).toList ++
      declarations name ls

/-- The text that a constant holds. -/
def text? (cs : List Char) : Option String := do
  let (s, rest) ← Text.unquote? (← cs.dropPrefix? ": &str = ".toList)
  if rest.head? = some ';' then some (String.ofList s) else none

/-- The texts of a list up to its bracket. Every text takes a character, so the
length of what is read bounds the steps. -/
def items? : (fuel : Nat) → List Char → Option (List String)
  | 0, _ => none
  | fuel + 1, cs =>
    let start := cs.dropWhile Text.isBlank
    if start.take 2 = [']', ';'] then some []
    else do
      let (s, rest) ← Text.unquote? start
      let rest := rest.dropWhile Text.isBlank
      if rest.head? = some ',' then (items? fuel rest.tail).map (String.ofList s :: ·)
      else if rest.take 2 = [']', ';'] then some [String.ofList s] else none

/-- The texts that a constant lists. -/
def texts? (cs : List Char) : Option (List String) := do
  let rest ← cs.dropPrefix? ": &[&str] = &[".toList
  items? (rest.length + 1) rest

/-- The texts that constants of a name hold. -/
def textConstants (name : String) (lines : List String) : List (Option String) :=
  (declarations name lines).map text?

/-- The lists of texts that constants of a name hold. -/
def listConstants (name : String) (lines : List String) : List (Option (List String)) :=
  (declarations name lines).map texts?

end SourceReader

/-- The names that a module imports. -/
def SourceModule.imports (s : SourceModule) : List String := s.body.filterMap SourceReader.imported?

namespace SourceReader

variable {l name : String} {ls ks : List String} {cs rest : List Char} {s : String}

/-! ## Lines -/

theorem outdent_indentLine (t : String) : outdent (Code.indentLine 1 t) = t := by
  by_cases ht : t = ""
  · subst ht
    rfl
  · rw [outdent, Code.indentLine_one ht]
    simp

theorem dropPrefix?_append (start rest : List Char) : (start ++ rest).dropPrefix? start = some rest :=
  List.dropPrefix?_append_of_beq rest (beq_self_eq_true start)

/-- Whether neither of two texts is the start of the other. -/
def parts (start word : List Char) : Bool := !start.isPrefixOf word && !word.isPrefixOf start

/-- What starts otherwise is not taken. -/
theorem dropPrefix?_eq_none {start word : List Char} (h : parts start word = true) :
    (start ++ rest).dropPrefix? word = none := by
  simp only [parts, Bool.and_eq_true, Bool.not_eq_true', Bool.eq_false_iff, ne_eq, List.isPrefixOf_iff_prefix] at h
  refine Option.eq_none_iff_forall_ne_some.2 fun after hafter => ?_
  obtain ⟨p, hcs, hp⟩ := List.dropPrefix?_eq_some_iff.1 hafter
  rw [beq_iff_eq.1 hp] at hcs
  exact (List.prefix_or_prefix_of_prefix ⟨rest, hcs⟩ (List.prefix_append word after)).elim h.1 h.2

/-- **Whether a line says nothing**: it opens no module, imports no name and
declares no constant. -/
structure IsSilent (l : String) : Prop where
  opened : opened? l = none
  imported : imported? l = none
  declared : declared? l = none

/-- The words that a line starts with if it says something. -/
def words : List (List Char) :=
  [['p', 'u', 'b', ' ', 'm', 'o', 'd', ' '], ['u', 's', 'e', ' '],
    ['p', 'u', 'b', ' ', 'c', 'o', 'n', 's', 't', ' ']]

/-- **A line says nothing if it starts with none of the words.** -/
theorem isSilent_of_start {start : List Char} (hl : l.toList = start ++ rest) (h : words.all (parts start) = true) :
    IsSilent l := by
  have hwords : words = ["pub mod ".toList, "use ".toList, "pub const ".toList] := rfl
  simp only [hwords, List.all_cons, List.all_nil, Bool.and_true, Bool.and_eq_true] at h
  obtain ⟨hmod, huse, hconst⟩ := h
  constructor
  · rw [opened?, hl, dropPrefix?_eq_none hmod]
    rfl
  · rw [imported?, hl, dropPrefix?_eq_none huse]
    rfl
  · rw [declared?, hl, dropPrefix?_eq_none hconst]
    rfl

theorem isSilent_ofList (h : words.all (parts cs) = true) : IsSilent (String.ofList cs) :=
  isSilent_of_start (by rw [String.toList_ofList, List.append_nil]) h

/-- A line that is put together says nothing if its start does not. -/
theorem isSilent_append (t : String) (h : words.all (parts cs) = true) : IsSilent (String.ofList cs ++ t) :=
  isSilent_of_start (by rw [String.toList_append, String.toList_ofList]) h

theorem isSilent_blank : IsSilent "" := ⟨by decide +kernel, by decide +kernel, by decide +kernel⟩

theorem isSilent_brace : IsSilent "\x7d" := isSilent_ofList (by decide)

/-- A line further in says nothing further out. -/
theorem isSilent_indentLine (t : String) : IsSilent (Code.indentLine 1 t) := by
  by_cases ht : t = ""
  · subst ht
    exact isSilent_blank
  · exact isSilent_of_start (Code.indentLine_one ht) (by decide)

/-! ## Modules -/

theorem modules_append (h : ∀ l ∈ ks, opened? l = none) : modules (ks ++ ls) = modules ls := by
  induction ks with
  | nil => rfl
  | cons l ks ih =>
    rw [List.cons_append, modules, h l List.mem_cons_self, ih fun k hk => h k (List.mem_cons_of_mem l hk)]
    rfl

/-- The names of the modules that are opened do not depend on what comes after. -/
theorem names_modules_append (ks ls : List String) :
    (modules (ks ++ ls)).map (·.name) = (modules ks).map (·.name) ++ (modules ls).map (·.name) := by
  induction ks with
  | nil => rfl
  | cons l ks ih =>
    rw [List.cons_append, modules, modules, List.map_append, ih, List.map_append, List.append_assoc]
    cases opened? l <;> rfl

theorem opened?_module (name : String) : opened? ("pub mod " ++ name ++ " \x7b") = some name := by
  have hline : ("pub mod " ++ name ++ " \x7b").toList = "pub mod ".toList ++ (name.toList ++ " \x7b".toList) := by
    simp only [String.toList_append, List.append_assoc]
  have hsuffix : (name.toList ++ " \x7b".toList).dropSuffix? " \x7b".toList = some name.toList :=
    List.dropSuffix?_eq_some_iff.2 ⟨_, rfl, beq_self_eq_true _⟩
  rw [opened?, hline, dropPrefix?_append, Option.bind_some, hsuffix, Option.map_some, String.ofList_toList]

/-- No line further in closes the module. -/
theorem indentLine_ne_brace (t : String) : Code.indentLine 1 t ≠ "\x7d" := by
  by_cases ht : t = ""
  · subst ht
    decide
  · intro h
    have hlist := Code.indentLine_one ht
    have hbrace : "\x7d".toList = ['\x7d'] := rfl
    rw [h, hbrace] at hlist
    simp at hlist

/-- **A module is read with its body**, from the line that opens it. -/
theorem modules_module (name : String) (body : List String) (ls : List String) :
    modules (("pub mod " ++ name ++ " \x7b") :: (body.map (Code.indentLine 1) ++ "\x7d" :: ls)) =
      ⟨name, body⟩ :: modules ls := by
  have hinside : (body.map (Code.indentLine 1) ++ "\x7d" :: ls).takeWhile (· != "\x7d") =
      body.map (Code.indentLine 1) := by
    rw [List.takeWhile_append_of_pos, List.takeWhile_cons_of_neg (by simp), List.append_nil]
    intro l hl
    obtain ⟨t, -, rfl⟩ := List.mem_map.1 hl
    exact bne_iff_ne.2 (indentLine_ne_brace t)
  have hbody : (body.map (Code.indentLine 1)).map outdent = body := by
    rw [List.map_map]
    exact List.map_id'' outdent_indentLine body
  have hrest : modules (body.map (Code.indentLine 1) ++ "\x7d" :: ls) = modules ls := by
    rw [modules_append, modules, isSilent_brace.opened]
    · rfl
    · intro l hl
      obtain ⟨t, -, rfl⟩ := List.mem_map.1 hl
      exact (isSilent_indentLine t).opened
  rw [modules, opened?_module, hinside, hbody, hrest]
  rfl

/-- The name behind a path is the one that is imported. -/
theorem imported?_use (path : String) (hname : ':' ∉ name.toList) :
    imported? ("use " ++ path ++ "::" ++ name ++ ";") = some name := by
  have hline : ("use " ++ path ++ "::" ++ name ++ ";").toList =
      "use ".toList ++ ((path.toList ++ "::".toList ++ name.toList) ++ ";".toList) := by
    simp only [String.toList_append, List.append_assoc]
  have hsuffix : ((path.toList ++ "::".toList ++ name.toList) ++ ";".toList).dropSuffix? ";".toList =
      some (path.toList ++ "::".toList ++ name.toList) :=
    List.dropSuffix?_eq_some_iff.2 ⟨_, rfl, beq_self_eq_true _⟩
  have hlast : (path.toList ++ "::".toList ++ name.toList).reverse.takeWhile (· != ':') = name.toList.reverse := by
    have hcolons : "::".toList = [':', ':'] := rfl
    rw [List.reverse_append, List.takeWhile_append_of_pos, hcolons]
    · simp
    · intro c hc
      exact bne_iff_ne.2 fun h => hname (h ▸ List.mem_reverse.1 hc)
  rw [imported?, hline, dropPrefix?_append, Option.bind_some, hsuffix, Option.map_some, hlast, List.reverse_reverse,
    String.ofList_toList]

/-! ## Constants -/

/-- A line that declares a constant, whatever comes behind its name. -/
theorem declared?_of_toList (hl : l.toList = "pub const ".toList ++ (name.toList ++ ':' :: rest))
    (hname : ':' ∉ name.toList) : declared? l = some (name, ':' :: rest) := by
  have hletters : ∀ c ∈ name.toList, (c != ':') = true := fun c hc => bne_iff_ne.2 fun h => hname (h ▸ hc)
  rw [declared?, hl, dropPrefix?_append, Option.map_some, List.takeWhile_append_of_pos hletters,
    List.dropWhile_append_of_pos hletters]
  simp

theorem declared?_text (value : String) (hname : ':' ∉ name.toList) :
    declared? ("pub const " ++ name ++ ": &str = " ++ Text.quoted value ++ ";") =
      some (name, ": &str = ".toList ++ ((Text.quoted value).toList ++ [';'])) := by
  have htype : ": &str = ".toList = ':' :: " &str = ".toList := by decide +kernel
  have hend : ";".toList = [';'] := rfl
  rw [htype]
  refine declared?_of_toList ?_ hname
  simp only [String.toList_append, htype, hend, List.append_assoc, List.cons_append]
  rfl

theorem declared?_constant (type value : String) (hname : ':' ∉ name.toList) :
    declared? ("pub const " ++ name ++ ": " ++ type ++ " = " ++ value ++ ";") =
      some (name, ": ".toList ++ (type.toList ++ (" = ".toList ++ (value.toList ++ [';'])))) := by
  have htype : ": ".toList = [':', ' '] := rfl
  have hend : ";".toList = [';'] := rfl
  rw [htype]
  refine declared?_of_toList ?_ hname
  simp only [String.toList_append, htype, hend, List.append_assoc, List.cons_append, List.nil_append]
  rfl

/-- Such a line neither opens a module nor imports a name. -/
theorem opened?_constant (t : String) :
    opened? ("pub const " ++ t) = none ∧ imported? ("pub const " ++ t) = none := by
  rw [opened?, imported?, String.toList_append, dropPrefix?_eq_none (by decide +kernel),
    dropPrefix?_eq_none (by decide +kernel)]
  exact ⟨rfl, rfl⟩

theorem declarations_append (h : ∀ l ∈ ks, ∀ rest, declared? l ≠ some (name, rest)) :
    declarations name (ks ++ ls) = declarations name ls := by
  induction ks with
  | nil => rfl
  | cons l ks ih =>
    have hl : (declared? l).filter (·.1 == name) = none := by
      refine Option.filter_eq_none_iff.2 fun ⟨n, rest⟩ hd hn => ?_
      obtain rfl := beq_iff_eq.1 hn
      exact h l List.mem_cons_self rest hd
    rw [List.cons_append, declarations, hl, ih fun k hk => h k (List.mem_cons_of_mem l hk)]
    rfl

/-- **A constant that is declared once** is found there. -/
theorem declarations_eq (hks : ∀ l ∈ ks, ∀ rest, declared? l ≠ some (name, rest))
    (hl : declared? l = some (name, cs)) (hls : ∀ l ∈ ls, ∀ rest, declared? l ≠ some (name, rest)) :
    declarations name (ks ++ l :: ls) = [cs ++ '\n' :: (Code.join ls).toList] := by
  have hafter : declarations name ls = [] := by
    rw [← List.append_nil ls, declarations_append hls]
    rfl
  rw [declarations_append hks, declarations, hl, hafter]
  simp [Option.filter]

/-! ## Values -/

theorem text?_quoted (value : String) (rest : List Char) :
    text? (": &str = ".toList ++ ((Text.quoted value).toList ++ ';' :: rest)) = some value := by
  rw [text?, dropPrefix?_append]
  simp [Text.unquote?_quoted]

theorem toList_quoted_eq (s : String) : ∃ cs, (Text.quoted s).toList = '"' :: cs := by
  exact ⟨_, by rw [Text.quoted, String.toList_ofList, List.cons_append]⟩

/-- A text of a list is read behind the blanks before it. -/
theorem items?_quoted (fuel : Nat) {b : List Char} (hb : b.all Text.isBlank = true) (s : String)
    (rest : List Char) :
    items? (fuel + 1) (b ++ ((Text.quoted s).toList ++ rest)) =
      if (rest.dropWhile Text.isBlank).head? = some ',' then
        (items? fuel (rest.dropWhile Text.isBlank).tail).map (s :: ·)
      else if (rest.dropWhile Text.isBlank).take 2 = [']', ';'] then some [s] else none := by
  obtain ⟨cs, hcs⟩ := toList_quoted_eq s
  have hstart : (b ++ ((Text.quoted s).toList ++ rest)).dropWhile Text.isBlank =
      (Text.quoted s).toList ++ rest := by
    rw [List.dropWhile_append_of_pos (List.all_eq_true.1 hb), hcs, List.cons_append,
      List.dropWhile_cons_of_neg (by decide)]
  have hno : ((Text.quoted s).toList ++ rest).take 2 ≠ [']', ';'] := by
    rw [hcs]
    simp
  rw [items?]
  simp only [hstart, if_neg hno, Text.unquote?_quoted, bind, Option.bind, String.ofList_toList]

/-- The end of a list. -/
theorem items?_end (fuel : Nat) {b : List Char} (hb : b.all Text.isBlank = true)
    (rest : List Char) : items? (fuel + 1) (b ++ ']' :: ';' :: rest) = some [] := by
  have hstart : (b ++ ']' :: ';' :: rest).dropWhile Text.isBlank = ']' :: ';' :: rest := by
    rw [List.dropWhile_append_of_pos (List.all_eq_true.1 hb), List.dropWhile_cons_of_neg (by decide)]
  rw [items?]
  simp only [hstart]
  rfl

/-- Texts with commas between them are read up to the bracket, by induction on
them. -/
theorem items?_intercalate (items : List String) (rest : List Char) :
    ∀ {n : Nat} {b : List Char}, items.length < n → b.all Text.isBlank = true →
      items? n (b ++ ((String.intercalate ", " (items.map Text.quoted)).toList ++ ']' :: ';' :: rest)) =
        some items := by
  induction items with
  | nil =>
    rintro (_ | n) b hf hb
    · cases hf
    · exact items?_end n hb rest
  | cons s items ih =>
    rintro (_ | n) b hf hb
    · cases hf
    · rcases items with _ | ⟨t, items⟩
      · rw [List.map_cons, List.map_nil, String.intercalate_singleton, items?_quoted n hb]
        rfl
      · have htext : (String.intercalate ", " ((s :: t :: items).map Text.quoted)).toList ++ ']' :: ';' :: rest =
            (Text.quoted s).toList ++ ',' :: ([' '] ++
              ((String.intercalate ", " ((t :: items).map Text.quoted)).toList ++ ']' :: ';' :: rest)) := by
          simp
        have hrest := ih (n := n) (b := [' ']) (by simpa using hf) (by decide)
        rw [htext, items?_quoted n hb, List.dropWhile_cons_of_neg (by decide), List.head?_cons, if_pos rfl,
          List.tail_cons, hrest]
        rfl

/-- Texts on lines of their own are read up to the bracket, by induction on
them. -/
theorem items?_lines (items : List String) (ls : List String) : ∀ {n : Nat}, items.length < n →
    items? n ('\n' :: (Code.join (items.map (fun s => Code.indentLine 1 (Text.quoted s ++ ",")) ++
      "];" :: ls)).toList) = some items := by
  have hjoin (l : String) (ls : List String) :
      (Code.join (l :: ls)).toList = l.toList ++ '\n' :: (Code.join ls).toList := by
    simp [Code.join]
  induction items with
  | nil =>
    rintro (_ | n) hf
    · cases hf
    · have hend : "];".toList = [']', ';'] := rfl
      rw [List.map_nil, List.nil_append, hjoin, hend]
      exact items?_end n (b := ['\n']) (by decide) _
  | cons s items ih =>
    rintro (_ | n) hf
    · cases hf
    · have hne : Text.quoted s ++ "," ≠ "" := by simp
      have hline : (Code.indentLine 1 (Text.quoted s ++ ",")).toList =
          [' ', ' ', ' ', ' '] ++ ((Text.quoted s).toList ++ [',']) := by
        rw [Code.indentLine_one hne, String.toList_append]
        rfl
      -- the bracket or the next line is read behind the break and the indentation
      have hrest := ih (n := n) (by simpa using hf)
      have hitem := items?_quoted n (b := ['\n', ' ', ' ', ' ', ' ']) (by decide) s (',' :: '\n' ::
        (Code.join (items.map (fun s => Code.indentLine 1 (Text.quoted s ++ ",")) ++ "];" :: ls)).toList)
      rw [List.dropWhile_cons_of_neg (by decide), List.head?_cons, if_pos rfl, List.tail_cons, hrest] at hitem
      rw [List.map_cons, List.cons_append, hjoin, hline]
      simpa using hitem

/-- A list has at least as many characters as texts. -/
theorem length_le_intercalate (items : List String) :
    items.length ≤ (String.intercalate ", " (items.map Text.quoted)).toList.length := by
  have hpos (s : String) : 1 ≤ (Text.quoted s).toList.length := by
    obtain ⟨cs, hcs⟩ := toList_quoted_eq s
    rw [hcs, List.length_cons]
    omega
  induction items with
  | nil => exact Nat.le_refl _
  | cons s items ih =>
    rcases items with _ | ⟨t, items⟩
    · simpa using hpos s
    · have htext : (String.intercalate ", " ((s :: t :: items).map Text.quoted)).toList =
          (Text.quoted s).toList ++ (", ".toList ++ (String.intercalate ", " ((t :: items).map Text.quoted)).toList) := by
        simp
      have hs := hpos s
      rw [htext, List.length_append, List.length_append, List.length_cons]
      omega

theorem texts?_literalList (items : List String) (rest : List Char) :
    texts? (": &[&str] = &[".toList ++ ((String.intercalate ", " (items.map Text.quoted)).toList ++
      ']' :: ';' :: rest)) = some items := by
  have hle := length_le_intercalate items
  rw [texts?, dropPrefix?_append]
  refine items?_intercalate items rest (b := []) ?_ rfl
  rw [List.length_append]
  omega

theorem length_le_lines (items ls : List String) :
    items.length ≤ (Code.join (items.map (fun s => Code.indentLine 1 (Text.quoted s ++ ",")) ++ ls)).toList.length := by
  induction items with
  | nil => exact Nat.zero_le _
  | cons s items ih =>
    have hjoin : (Code.join ((s :: items).map (fun s => Code.indentLine 1 (Text.quoted s ++ ",")) ++ ls)).toList =
        (Code.indentLine 1 (Text.quoted s ++ ",")).toList ++ '\n' ::
          (Code.join (items.map (fun s => Code.indentLine 1 (Text.quoted s ++ ",")) ++ ls)).toList := by
      simp [Code.join]
    rw [hjoin, List.length_append, List.length_cons, List.length_cons]
    omega

theorem texts?_lines (items ls : List String) :
    texts? (": &[&str] = &[".toList ++ '\n' :: (Code.join
      (items.map (fun s => Code.indentLine 1 (Text.quoted s ++ ",")) ++ "];" :: ls)).toList) = some items := by
  have hle := length_le_lines items ("];" :: ls)
  rw [texts?, dropPrefix?_append]
  refine items?_lines items ls ?_
  rw [List.length_cons]
  omega

end SourceReader

end TypedTables

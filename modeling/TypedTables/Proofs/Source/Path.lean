import TypedTables.Proofs.Source.Naming
/-!
# TypedTables — paths of modules

A model names the module that its struct is imported from. The language takes a
path of plain names, which may start at the root of all crates, and a path that
starts in this crate, in this module or in one above it; such a start never
stands behind the separator that means the root. The check of packages takes all
these paths, and of all others just those in which such a start does stand
behind that separator.
-/

namespace TypedTables

namespace Naming

open Identifier (IsWord isPart)

variable {name path : String} {names ss : List String}

/-! ## Words of the language -/

/-- The words that the language has a use for. -/
def strictWords : List String :=
  ["as", "break", "const", "continue", "crate", "else", "enum", "extern", "false", "fn", "for", "if", "impl", "in",
    "let", "loop", "match", "mod", "move", "mut", "pub", "ref", "return", "self", "Self", "static", "struct", "super",
    "trait", "true", "type", "unsafe", "use", "where", "while", "async", "await", "dyn"]

/-- The words that it keeps for later. -/
def keptWords : List String :=
  ["abstract", "become", "box", "do", "final", "macro", "override", "priv", "typeof", "unsized", "virtual", "yield",
    "try", "gen"]

/-- **The words of the language**, none of which is a name. -/
def languageWords : List String := strictWords ++ keptWords

/-- The check knows these words, and no others. -/
theorem mem_keywords : name ∈ keywords ↔ name ∈ languageWords := by
  have hall : (∀ w ∈ keywords, w ∈ languageWords) ∧ ∀ w ∈ languageWords, w ∈ keywords := by decide +kernel
  exact ⟨hall.1 name, hall.2 name⟩

theorem isKeyword_iff : isKeyword name = true ↔ name ∈ languageWords := List.contains_iff_mem.trans mem_keywords

/-! ## Paths of the language -/

/-- **A plain name**: an identifier that is no word of the language, and no lone
underscore. -/
structure IsPlain (name : String) : Prop where
  isValid : Identifier.isValid name = true
  notMem_languageWords : name ∉ languageWords
  ne_underscore : name ≠ "_"

/-- **Steps up**, any number of them, and then plain names. -/
inductive IsSteps : List String → Prop
  | names {names : List String} : (∀ n ∈ names, IsPlain n) → IsSteps names
  | up {ss : List String} : IsSteps ss → IsSteps ("super" :: ss)

/-- **Segments that have a start of their own**: this crate, this module, or the
module above it. -/
inductive IsAnchored : List String → Prop
  | crate {names : List String} : (∀ n ∈ names, IsPlain n) → IsAnchored ("crate" :: names)
  | here {ss : List String} : IsSteps ss → IsAnchored ("self" :: ss)
  | above {ss : List String} : IsSteps ss → IsAnchored ("super" :: ss)

/-- Segments with a separator between each two. -/
def pathOf (segments : List String) : String := String.intercalate "::" segments

/-- **A path that a name can be imported from.** -/
inductive IsImportable : String → Prop
  | named {names : List String} : names ≠ [] → (∀ n ∈ names, IsPlain n) → IsImportable (pathOf names)
  /-- From the root of all crates. -/
  | rooted {names : List String} : names ≠ [] → (∀ n ∈ names, IsPlain n) →
      IsImportable ("::" ++ pathOf names)
  | anchored {segments : List String} : IsAnchored segments → IsImportable (pathOf segments)

/-- **A start of its own behind the root**: no name is imported from such a path. -/
def IsMisplaced (path : String) : Prop := ∃ segments, IsAnchored segments ∧ path = "::" ++ pathOf segments

/-! ## Cutting a path into segments -/

/-- What stands between separators: at least one letter, and none that could be
taken for a separator. -/
structure IsSegment (s : String) : Prop where
  isWord : IsWord s
  ne_empty : s ≠ ""

theorem IsPlain.isSegment (h : IsPlain name) : IsSegment name where
  isWord := Identifier.isWord_of_isValid h.isValid
  ne_empty := by
    rintro rfl
    exact absurd h.isValid (by decide)

theorem IsSegment.colon_notMem (h : IsSegment name) : ':' ∉ name.toList := fun hmem =>
  absurd (h.isWord ':' hmem) (by decide)

theorem IsSegment.toList_ne_nil (h : IsSegment name) : name.toList ≠ [] := fun hnil =>
  h.ne_empty (String.toList_eq_nil_iff.1 hnil)

@[simp] theorem pathOf_singleton (s : String) : pathOf [s] = s := String.intercalate_singleton

theorem toList_pathOf_cons_cons (s t : String) (ss : List String) :
    (pathOf (s :: t :: ss)).toList = s.toList ++ ':' :: ':' :: (pathOf (t :: ss)).toList := by
  have hsep : "::".toList = [':', ':'] := rfl
  rw [pathOf, String.intercalate_cons_cons, String.toList_append, String.toList_append, hsep, List.append_assoc]
  rfl

/-- A path starts with the letters of its first segment. -/
theorem exists_toList_pathOf_cons (s : String) (ss : List String) :
    ∃ rest, (pathOf (s :: ss)).toList = s.toList ++ rest := by
  rcases ss with _ | ⟨t, ss⟩
  · exact ⟨[], by rw [pathOf_singleton, List.append_nil]⟩
  · exact ⟨_, toList_pathOf_cons_cons s t ss⟩

/-- So it does not start with a separator. -/
theorem ne_separator_of_segments (hne : ss ≠ []) (h : ∀ s ∈ ss, IsSegment s) (rest : List Char) :
    (pathOf ss).toList ≠ ':' :: ':' :: rest := by
  obtain ⟨s, ss, rfl⟩ := List.exists_cons_of_ne_nil hne
  have hs := h s List.mem_cons_self
  obtain ⟨tail, htail⟩ := exists_toList_pathOf_cons s ss
  obtain ⟨c, w, hw⟩ := List.exists_cons_of_ne_nil hs.toList_ne_nil
  rw [htail, hw]
  intro heq
  obtain rfl : c = ':' := (List.cons.inj heq).1
  exact hs.colon_notMem (hw ▸ List.mem_cons_self)

theorem splitSegment_cons {c : Char} (hc : c ≠ ':') (cs : List Char) :
    splitSegment (c :: cs) = (c :: (splitSegment cs).1, (splitSegment cs).2) := by
  rw [splitSegment]
  rintro rest rfl
  exact absurd rfl hc

theorem splitSegment_of_notMem {w : List Char} (h : ':' ∉ w) : splitSegment w = (w, none) := by
  induction w with
  | nil => rfl
  | cons c w ih =>
    rw [List.mem_cons, not_or] at h
    rw [splitSegment_cons (Ne.symm h.1), ih h.2]

/-- **A segment ends at the first separator.** -/
theorem splitSegment_append {w : List Char} (h : ':' ∉ w) (rest : List Char) :
    splitSegment (w ++ ':' :: ':' :: rest) = (w, some rest) := by
  induction w with
  | nil => rfl
  | cons c w ih =>
    rw [List.mem_cons, not_or] at h
    rw [List.cons_append, splitSegment_cons (Ne.symm h.1), ih h.2]

/-- **The segments of a path are those that it was made of.** -/
theorem segmentsWithin_pathOf (hne : ss ≠ []) (h : ∀ s ∈ ss, IsSegment s) {n : Nat}
    (hn : (pathOf ss).toList.length < n) : segmentsWithin n (pathOf ss).toList = ss := by
  -- a segment that is cut off takes a separator with it, so the steps that are left suffice
  induction ss generalizing n with
  | nil => exact absurd rfl hne
  | cons s ss ih =>
    obtain ⟨hs, hss⟩ := List.forall_mem_cons.1 h
    obtain ⟨n, rfl⟩ := Nat.exists_eq_add_one_of_ne_zero (Nat.ne_zero_of_lt hn)
    rcases ss with _ | ⟨t, ss⟩
    · rw [pathOf_singleton, segmentsWithin, splitSegment_of_notMem hs.colon_notMem]
      simp only [String.ofList_toList]
    · rw [toList_pathOf_cons_cons, List.length_append, List.length_cons, List.length_cons] at hn
      have hrest := ih (List.cons_ne_nil t ss) hss (n := n) (by omega)
      rw [toList_pathOf_cons_cons, segmentsWithin, splitSegment_append hs.colon_notMem]
      simp only [hrest, String.ofList_toList]

theorem segments_pathOf (hne : ss ≠ []) (h : ∀ s ∈ ss, IsSegment s) : segments (pathOf ss).toList = ss :=
  segmentsWithin_pathOf hne h (Nat.lt_succ_self _)

theorem pathOf_inj {ts : List String} (hs : ss ≠ []) (ht : ts ≠ []) (hss : ∀ s ∈ ss, IsSegment s)
    (hts : ∀ t ∈ ts, IsSegment t) (h : pathOf ss = pathOf ts) : ss = ts := by
  rw [← segments_pathOf hs hss, h, segments_pathOf ht hts]

/-- **A path is made of its segments**, of which there is one at least. -/
theorem pathOf_segmentsWithin {n : Nat} {cs : List Char} (hn : cs.length < n) :
    segmentsWithin n cs ≠ [] ∧ (pathOf (segmentsWithin n cs)).toList = cs := by
  induction n generalizing cs with
  | zero => cases hn
  | succ n ih =>
    have hcut := splitSegment_eq cs
    unfold segmentsWithin
    rcases hsplit : splitSegment cs with ⟨segment, _ | rest⟩ <;> rw [hsplit] at hcut
    · have hcs : cs = segment := by simpa using hcut
      refine ⟨List.cons_ne_nil _ _, ?_⟩
      rw [pathOf_singleton, String.toList_ofList, hcs]
    · have hcs : cs = segment ++ ':' :: ':' :: rest := hcut
      have hlen : rest.length < n := by
        rw [hcs, List.length_append, List.length_cons, List.length_cons] at hn
        omega
      obtain ⟨hne, hrest⟩ := ih hlen
      obtain ⟨t, ts, hts⟩ := List.exists_cons_of_ne_nil hne
      refine ⟨List.cons_ne_nil _ _, ?_⟩
      simp only [hts] at hrest ⊢
      rw [toList_pathOf_cons_cons, String.toList_ofList, hrest, hcs]

/-- **Every path is its segments**, behind the root or not, and the check is one
of the segments. -/
theorem exists_segments (path : String) : ∃ ss, ss ≠ [] ∧ (path = pathOf ss ∨ path = "::" ++ pathOf ss) ∧
    isModulePath path = areSegments true true ss := by
  unfold isModulePath
  simp only
  split
  case h_1 rest hpath =>
    obtain ⟨hne, hrest⟩ := pathOf_segmentsWithin (Nat.lt_succ_self rest.length)
    refine ⟨segments rest, hne, .inr ?_, rfl⟩
    rw [← String.toList_inj, hpath, String.toList_append, segments, hrest]
    rfl
  case h_2 =>
    obtain ⟨hne, hpath⟩ := pathOf_segmentsWithin (Nat.lt_succ_self path.toList.length)
    exact ⟨segments path.toList, hne, .inl (String.toList_inj.1 hpath.symm), rfl⟩

theorem isModulePath_pathOf (hne : ss ≠ []) (h : ∀ s ∈ ss, IsSegment s) :
    isModulePath (pathOf ss) = areSegments true true ss := by
  unfold isModulePath
  simp only
  split
  case h_1 rest hpath => exact absurd hpath (ne_separator_of_segments hne h rest)
  case h_2 => rw [segments_pathOf hne h]

/-- The check does not look at the root. -/
theorem isModulePath_rooted (hne : ss ≠ []) (h : ∀ s ∈ ss, IsSegment s) :
    isModulePath ("::" ++ pathOf ss) = areSegments true true ss := by
  have hpath : ("::" ++ pathOf ss).toList = ':' :: ':' :: (pathOf ss).toList := String.toList_append
  unfold isModulePath
  simp only [hpath]
  rw [segments_pathOf hne h]

/-! ## What the check takes -/

theorem isPlain_iff :
    (Identifier.isValid name && !isKeyword name && !isUnescapable name) = true ↔ IsPlain name := by
  have hunescapable : isUnescapable name = true ↔ name ∈ ["self", "super", "crate", "Self", "_"] :=
    List.contains_iff_mem
  rw [Bool.and_eq_true, Bool.and_eq_true, Bool.not_eq_true', Bool.not_eq_true', ← Bool.not_eq_true,
    ← Bool.not_eq_true, isKeyword_iff, hunescapable]
  constructor
  · rintro ⟨⟨hvalid, hkeyword⟩, hunescapable⟩
    refine ⟨hvalid, hkeyword, ?_⟩
    rintro rfl
    exact hunescapable (by decide)
  · intro h
    refine ⟨⟨h.isValid, h.notMem_languageWords⟩, fun hmem => ?_⟩
    -- what cannot be written raw is a keyword, but for the underscore
    have hall : ∀ s ∈ ["self", "super", "crate", "Self", "_"], s ∈ languageWords ∨ s = "_" := by decide
    exact (hall name hmem).elim h.notMem_languageWords h.ne_underscore

theorem IsPlain.not_start (h : IsPlain name) : name ≠ "crate" ∧ name ≠ "self" ∧ name ≠ "super" := by
  refine ⟨?_, ?_, ?_⟩ <;>
    · rintro rfl
      exact h.notMem_languageWords (by decide)

theorem isSteps_cons_iff {s : String} :
    IsSteps (s :: ss) ↔ s = "super" ∧ IsSteps ss ∨ IsPlain s ∧ ∀ n ∈ ss, IsPlain n := by
  constructor
  · rintro (hnames | hsteps)
    · exact .inr (List.forall_mem_cons.1 hnames)
    · exact .inl ⟨rfl, hsteps⟩
  · rintro (⟨rfl, hsteps⟩ | hnames)
    · exact .up hsteps
    · exact .names (List.forall_mem_cons.2 hnames)

theorem isAnchored_cons_iff {s : String} : IsAnchored (s :: ss) ↔
    s = "crate" ∧ (∀ n ∈ ss, IsPlain n) ∨ s = "self" ∧ IsSteps ss ∨ s = "super" ∧ IsSteps ss := by
  constructor
  · rintro (hnames | hsteps | hsteps)
    · exact .inl ⟨rfl, hnames⟩
    · exact .inr (.inl ⟨rfl, hsteps⟩)
    · exact .inr (.inr ⟨rfl, hsteps⟩)
  · rintro (⟨rfl, hnames⟩ | ⟨rfl, hsteps⟩ | ⟨rfl, hsteps⟩)
    · exact .crate hnames
    · exact .here hsteps
    · exact .above hsteps

/-- **One segment more.** What may follow it depends on the segment, and whether
it may stand where it does on what came before. -/
theorem areSegments_cons_iff {s : String} {isFirst isRelative : Bool} :
    areSegments isFirst isRelative (s :: ss) = true ↔
      s = "crate" ∧ isFirst = true ∧ areSegments false false ss = true ∨
      s = "self" ∧ isFirst = true ∧ areSegments false true ss = true ∨
      s = "super" ∧ isRelative = true ∧ areSegments false true ss = true ∨
      IsPlain s ∧ areSegments false false ss = true := by
  -- the check looks for the three starts first, and none of them is a name
  by_cases hcrate : s = "crate"
  · subst hcrate
    have hnot : ¬ IsPlain "crate" := fun h => h.not_start.1 rfl
    simp [areSegments, hnot]
  by_cases hself : s = "self"
  · subst hself
    have hnot : ¬ IsPlain "self" := fun h => h.not_start.2.1 rfl
    simp [areSegments, hnot]
  by_cases hsuper : s = "super"
  · subst hsuper
    have hnot : ¬ IsPlain "super" := fun h => h.not_start.2.2 rfl
    simp [areSegments, hnot]
  rw [areSegments, beq_eq_false_iff_ne.2 hcrate, beq_eq_false_iff_ne.2 hself, beq_eq_false_iff_ne.2 hsuper]
  simp [hcrate, hself, hsuper, ← isPlain_iff]

/-- **Behind a name there are names.** -/
theorem areSegments_names : areSegments false false ss = true ↔ ∀ s ∈ ss, IsPlain s := by
  induction ss with
  | nil => exact iff_of_true rfl (List.forall_mem_nil _)
  | cons s ss ih => simp [areSegments_cons_iff, ih]

/-- **Behind a step up there may be more of them**, and then names. -/
theorem areSegments_steps : areSegments false true ss = true ↔ IsSteps ss := by
  induction ss with
  | nil => exact iff_of_true rfl (.names (List.forall_mem_nil _))
  | cons s ss ih => simp [areSegments_cons_iff, isSteps_cons_iff, areSegments_names, ih]

/-- **The segments that are taken** are plain names, or have a start of their own. -/
theorem areSegments_iff : areSegments true true ss = true ↔ (∀ s ∈ ss, IsPlain s) ∨ IsAnchored ss := by
  rcases ss with _ | ⟨s, ss⟩
  · exact iff_of_true rfl (.inl (List.forall_mem_nil _))
  · rw [areSegments_cons_iff, isAnchored_cons_iff, List.forall_mem_cons, areSegments_names, areSegments_steps]
    tauto

/-! ## Paths that are taken -/

theorem IsSteps.isSegment (h : IsSteps ss) : ∀ s ∈ ss, IsSegment s := by
  induction h with
  | names hnames => exact fun s hs => (hnames s hs).isSegment
  | up _ ih => exact List.forall_mem_cons.2 ⟨⟨by decide, by decide⟩, ih⟩

theorem IsAnchored.isSegment (h : IsAnchored ss) : ∀ s ∈ ss, IsSegment s := by
  cases h with
  | crate hnames =>
    exact List.forall_mem_cons.2 ⟨⟨by decide, by decide⟩, fun s hs => (hnames s hs).isSegment⟩
  | here hsteps => exact List.forall_mem_cons.2 ⟨⟨by decide, by decide⟩, hsteps.isSegment⟩
  | above hsteps => exact List.forall_mem_cons.2 ⟨⟨by decide, by decide⟩, hsteps.isSegment⟩

theorem IsAnchored.ne_nil (h : IsAnchored ss) : ss ≠ [] := by
  cases h <;> exact List.cons_ne_nil _ _

/-- What has a start of its own does not consist of plain names. -/
theorem IsAnchored.not_plain (h : IsAnchored ss) : ¬ ∀ s ∈ ss, IsPlain s := by
  intro hplain
  cases h with
  | crate => exact (hplain _ List.mem_cons_self).not_start.1 rfl
  | here => exact (hplain _ List.mem_cons_self).not_start.2.1 rfl
  | above => exact (hplain _ List.mem_cons_self).not_start.2.2 rfl

/-- **What the check takes**: each path that names can be imported from, and each
start of its own behind the root. -/
theorem isModulePath_iff : isModulePath path = true ↔ IsImportable path ∨ IsMisplaced path := by
  constructor
  · intro h
    obtain ⟨ss, hne, hpath, hcheck⟩ := exists_segments path
    rw [hcheck, areSegments_iff] at h
    rcases hpath with rfl | rfl <;> rcases h with hnames | hanchored
    · exact .inl (.named hne hnames)
    · exact .inl (.anchored hanchored)
    · exact .inl (.rooted hne hnames)
    · exact .inr ⟨ss, hanchored, rfl⟩
  · rintro ((⟨hne, hnames⟩ | ⟨hne, hnames⟩ | hanchored) | ⟨ss, hanchored, rfl⟩)
    · rw [isModulePath_pathOf hne fun s hs => (hnames s hs).isSegment]
      exact areSegments_iff.2 (.inl hnames)
    · rw [isModulePath_rooted hne fun s hs => (hnames s hs).isSegment]
      exact areSegments_iff.2 (.inl hnames)
    · rw [isModulePath_pathOf hanchored.ne_nil hanchored.isSegment]
      exact areSegments_iff.2 (.inr hanchored)
    · rw [isModulePath_rooted hanchored.ne_nil hanchored.isSegment]
      exact areSegments_iff.2 (.inr hanchored)

/-- **No name is imported from a start of its own behind the root.** -/
theorem IsMisplaced.not_isImportable (h : IsMisplaced path) : ¬ IsImportable path := by
  obtain ⟨ss, hanchored, rfl⟩ := h
  intro himportable
  generalize hpath : "::" ++ pathOf ss = path at himportable
  have hroot : ("::" ++ pathOf ss).toList = ':' :: ':' :: (pathOf ss).toList := String.toList_append
  cases himportable with
  | named hne hnames =>
    exact ne_separator_of_segments hne (fun s hs => (hnames s hs).isSegment) _ (hpath ▸ hroot)
  | rooted hne hnames =>
    -- behind the root the two paths are the same, and so are their segments
    have hsame := (String.append_right_inj "::").1 hpath
    have hss := pathOf_inj hanchored.ne_nil hne hanchored.isSegment (fun s hs => (hnames s hs).isSegment) hsame
    exact hanchored.not_plain (hss ▸ hnames)
  | anchored hother =>
    exact ne_separator_of_segments hother.ne_nil hother.isSegment _ (hpath ▸ hroot)

end Naming

open Naming in
/-- **The check of packages is exact but for starts behind the root.** It takes
each path that names can be imported from, and of all other paths just those in
which this crate, this module or one above it stands behind the root. -/
theorem module_paths_taken_iff (path : String) :
    (isModulePath path = true ↔ IsImportable path ∨ IsMisplaced path) ∧
      (IsMisplaced path → ¬ IsImportable path) :=
  ⟨isModulePath_iff, IsMisplaced.not_isImportable⟩

/-- A module of this crate behind the root is taken, and no name can be imported
from it. -/
theorem module_paths_taken_iff_desk :
    Naming.IsMisplaced "::crate::desk" ∧ Naming.isModulePath "::crate::desk" = true ∧
      ¬ Naming.IsImportable "::crate::desk" := by
  have hplain : ∀ n ∈ ["desk"], Naming.IsPlain n :=
    List.forall_mem_singleton.2 ⟨by decide, by decide, by decide⟩
  have hmisplaced : Naming.IsMisplaced "::crate::desk" := ⟨["crate", "desk"], .crate hplain, by decide⟩
  obtain ⟨htaken, hnot⟩ := module_paths_taken_iff "::crate::desk"
  exact ⟨hmisplaced, htaken.2 (.inr hmisplaced), hnot hmisplaced⟩

end TypedTables

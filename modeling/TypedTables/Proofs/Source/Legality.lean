import Mathlib
import TypedTables.Proofs.Extraction.Names
import TypedTables.Proofs.Source.Constant
import TypedTables.Proofs.Source.Path
/-!
# TypedTables — legal names

Names that are written down are not always those that were declared: folding their
case can make a keyword of one, and a keyword can be written where it is marked.
What is extracted has only names that stay legal on the way, that of a struct
without a mark, those of modules and members perhaps with one.
-/

namespace TypedTables

namespace Naming

open Identifier (IsWord isPart isStart isValidChars)

variable {name word : String} {taken fields : List String} {c : Char} {cs : List Char}

/-- **A legal name**: a plain one, or a word of the language that is marked. There
are words that cannot be marked. -/
inductive IsLegal : String → Prop
  | plain {name : String} : IsPlain name → IsLegal name
  | raw {word : String} : word ∈ languageWords → word ∉ ["self", "super", "crate", "Self"] → IsLegal (raw word)

/-! ## Snake case -/

theorem isUpper_of_mem_snakeChars {afterSmall : Bool} (h : c ∈ snakeChars afterSmall cs) : c.isUpper = false := by
  induction cs generalizing afterSmall with
  | nil => cases h
  | cons d cs ih =>
    unfold snakeChars at h
    split at h
    · split at h
      · rcases List.mem_cons.1 h with rfl | h
        · rfl
        · rcases List.mem_cons.1 h with rfl | h
          · exact Char.isUpper_toLower_eq_false d
          · exact ih h
      · rcases List.mem_cons.1 h with rfl | h
        · exact Char.isUpper_toLower_eq_false d
        · exact ih h
    case isFalse hd =>
      rcases List.mem_cons.1 h with rfl | h
      · exact eq_false_of_ne_true hd
      · exact ih h

/-- What has no capital letters stays as it is. -/
theorem snakeChars_eq_self (h : ∀ c ∈ cs, c.isUpper = false) (afterSmall : Bool) : snakeChars afterSmall cs = cs := by
  induction cs generalizing afterSmall with
  | nil => rfl
  | cons c cs ih =>
    obtain ⟨hc, hcs⟩ := List.forall_mem_cons.1 h
    rw [snakeChars, hc, if_neg Bool.false_ne_true, ih hcs]

/-- **Snake case is its own snake case.** -/
theorem snakeCase_snakeCase (name : String) : snakeCase (snakeCase name) = snakeCase name := by
  have hsmall : ∀ c ∈ (snakeCase name).toList, c.isUpper = false := by
    intro c hc
    rw [snakeCase, String.toList_ofList] at hc
    exact isUpper_of_mem_snakeChars hc
  rw [snakeCase, snakeChars_eq_self hsmall, String.ofList_toList]

/-- **The snake case of an identifier is one**: its first letter stays a letter, and
no digit comes before it. -/
theorem isValid_snakeCase (h : Identifier.isValid name = true) : Identifier.isValid (snakeCase name) = true := by
  obtain ⟨c, w, hname, hc, hall⟩ := Identifier.exists_cons_of_isValid h
  have hrest := fun afterSmall => isPart_of_mem_snakeChars (fun d hd => hall d (List.mem_cons_of_mem c hd)) afterSmall
  rw [Identifier.isValid, snakeCase, String.toList_ofList, hname, snakeChars]
  split
  case isTrue hupper =>
    have hstart : isStart c.toLower = true := by
      rw [isStart, Char.isAlpha_toLower_eq_isAlpha, Char.isAlpha, hupper]
      rfl
    rw [if_neg Bool.false_ne_true, isValidChars, hstart, List.all_eq_true.2 (hrest _)]
    rfl
  case isFalse =>
    rw [isValidChars, hc, List.all_eq_true.2 (hrest _)]
    rfl

/-- Only an underscore is written as one. -/
theorem eq_underscore_of_snakeCase (h : snakeCase name = "_") : name = "_" := by
  have hchars : snakeChars false name.toList = ['_'] := by
    have hlist := congrArg String.toList h
    rwa [snakeCase, String.toList_ofList] at hlist
  rcases hname : name.toList with _ | ⟨c, cs⟩
  · rw [hname] at hchars
    cases hchars
  · rw [hname, snakeChars] at hchars
    split at hchars
    case isTrue hupper =>
      -- a capital letter becomes a small one
      have hlower : c.toLower = '_' := by
        rw [if_neg Bool.false_ne_true] at hchars
        exact (List.cons.inj hchars).1
      have halpha : c.isAlpha = false := by
        rw [← Char.isAlpha_toLower_eq_isAlpha, hlower]
        rfl
      rw [Char.isAlpha, hupper] at halpha
      cases halpha
    case isFalse =>
      obtain ⟨rfl, hrest⟩ := List.cons.inj hchars
      rcases cs with _ | ⟨d, cs⟩
      · exact String.toList_inj.1 hname
      · unfold snakeChars at hrest
        split at hrest
        · split at hrest <;> cases hrest
        · cases hrest

/-! ## Modules and members -/

/-- A keyword that cannot be marked has a suffix as the name of a module. -/
theorem isPlain_model (h : word ∈ ["self", "super", "crate", "Self"]) : IsPlain (word ++ "_model") := by
  have hall : ∀ w ∈ ["self", "super", "crate", "Self"], Identifier.isValid (w ++ "_model") = true ∧
      w ++ "_model" ∉ languageWords ∧ w ++ "_model" ≠ "_" := by
    decide +kernel
  obtain ⟨hvalid, hkeyword, hne⟩ := hall word h
  exact ⟨hvalid, hkeyword, hne⟩

/-- **The name of a module is legal**, even where folding makes a keyword of it. -/
theorem isLegal_moduleName (hvalid : Identifier.isValid name = true) (hne : name ≠ "_") :
    IsLegal (moduleName name) := by
  unfold moduleName
  simp only
  split
  case isTrue h => exact .plain (isPlain_model (List.contains_iff_mem.1 h))
  case isFalse hescapable =>
    split
    case isTrue h => exact .raw (isKeyword_iff.1 h) fun hmem => hescapable (List.contains_iff_mem.2 hmem)
    case isFalse hkeyword =>
      refine .plain ⟨isValid_snakeCase hvalid, fun hmem => hkeyword (isKeyword_iff.2 hmem), fun h => ?_⟩
      exact hne (eq_underscore_of_snakeCase h)

theorem IsMember.ne_underscore (h : IsMember name) : name ≠ "_" := by
  rintro rfl
  exact absurd h.isUnescapable_eq_false (by decide)

/-- **A member is legal** behind a point. -/
theorem isLegal_member (h : IsMember name) : IsLegal (member name) := by
  unfold member
  split
  case isTrue hkeyword =>
    refine .raw (isKeyword_iff.1 hkeyword) fun hmem => ?_
    have hall : ∀ w ∈ ["self", "super", "crate", "Self"], isUnescapable w = true := by decide
    exact absurd (hall name hmem) (ne_true_of_eq_false h.isUnescapable_eq_false)
  case isFalse hkeyword =>
    exact .plain ⟨h.isValid, fun hmem => hkeyword (isKeyword_iff.2 hmem), h.ne_underscore⟩

/-! ## Constants of columns -/

/-- **A name without small letters**, which is why it is no word of the language. -/
def IsCapital (name : String) : Prop := ∀ c ∈ name.toList, c.isLower = false

instance : Decidable (IsCapital name) := List.decidableBAll (fun c : Char => c.isLower = false) name.toList

theorem IsCapital.notMem_languageWords (h : IsCapital name) : name ∉ languageWords := by
  have hsmall : languageWords.all (fun w => w.toList.any Char.isLower) = true := by decide +kernel
  intro hmem
  obtain ⟨c, hc, hlower⟩ := List.any_eq_true.1 (List.all_eq_true.1 hsmall name hmem)
  rw [h c hc] at hlower
  cases hlower

theorem IsCapital.suffixed (h : IsCapital name) (n : Nat) : IsCapital (suffixed name n) := by
  induction n generalizing name with
  | zero => rwa [suffixed_zero]
  | succ n ih =>
    rw [suffixed_succ]
    refine ih fun c hc => ?_
    rw [String.toList_append, List.mem_append] at hc
    have hsuffix : IsCapital "_COLUMN" := by decide
    exact hc.elim (h c) (hsuffix c)

theorem isCapital_constantOf (name : String) : IsCapital (constantOf name) := by
  intro c hc
  rw [constantOf, String.toList_map, List.mem_map] at hc
  obtain ⟨d, -, rfl⟩ := hc
  exact Char.isLower_toUpper_eq_false d

/-- An identifier stays one with a suffix. -/
theorem isValid_suffixed (h : Identifier.isValid name = true) (n : Nat) :
    Identifier.isValid (suffixed name n) = true := by
  induction n generalizing name with
  | zero => rwa [suffixed_zero]
  | succ n ih =>
    rw [suffixed_succ]
    refine ih ?_
    obtain ⟨c, w, hname, hc, hall⟩ := Identifier.exists_cons_of_isValid h
    have hsuffix : IsWord "_COLUMN" := by decide
    rw [Identifier.isValid, String.toList_append, hname, List.cons_append, isValidChars, hc, Bool.true_and,
      List.all_append, Bool.and_eq_true, List.all_eq_true, List.all_eq_true]
    exact ⟨fun d hd => hall d (List.mem_cons_of_mem c hd), hsuffix⟩

theorem isValid_constantOf (h : Identifier.isValid name = true) : Identifier.isValid (constantOf name) = true := by
  obtain ⟨c, w, hname, hc, hall⟩ := Identifier.exists_cons_of_isValid (isValid_snakeCase h)
  have hstart : isStart c.toUpper = true := by
    rcases Bool.or_eq_true_iff.1 hc with halpha | hsign
    · rw [isStart, Char.isAlpha_toUpper_eq_isAlpha, halpha]
      rfl
    · obtain rfl := beq_iff_eq.1 hsign
      decide
  rw [Identifier.isValid, constantOf, String.toList_map, hname, List.map_cons, isValidChars, hstart, Bool.true_and,
    List.all_map, List.all_eq_true]
  exact fun d hd => (Identifier.isPart_case (hall d (List.mem_cons_of_mem c hd))).2

/-- Only an underscore has one for its constant. -/
theorem eq_underscore_of_constantOf (h : constantOf name = "_") : name = "_" := by
  refine eq_underscore_of_snakeCase (String.toList_inj.1 ?_)
  have hlist : (snakeCase name).toList.map Char.toUpper = ['_'] := by
    rw [← String.toList_map]
    exact congrArg String.toList h
  obtain ⟨c, hc, hupper⟩ := List.map_eq_singleton_iff.1 hlist
  -- a letter whose capital letter is an underscore is no letter
  have halpha : c.isAlpha = false := by
    rw [← Char.isAlpha_toUpper_eq_isAlpha, hupper]
    rfl
  have hlower : ¬ c.isLower = true := by
    intro hlower
    rw [Char.isAlpha, hlower, Bool.or_true] at halpha
    cases halpha
  rw [Char.toUpper_eq_of_not_isLower hlower] at hupper
  rw [hc, hupper]
  rfl

/-- A suffix makes a name longer than an underscore. -/
theorem suffixed_ne_underscore (h : name ≠ "_") (n : Nat) : suffixed name n ≠ "_" := by
  rcases n with _ | n
  · rwa [suffixed_zero]
  · intro hsame
    have hlength := congrArg String.length hsame
    have hone : "_".length = 1 := by decide +kernel
    rw [length_suffixed, hone] at hlength
    omega

/-- **A constant is plain**, whatever suffixes it has. -/
theorem isPlain_suffixed_constantOf (hvalid : Identifier.isValid name = true) (hne : name ≠ "_") (n : Nat) :
    IsPlain (suffixed (constantOf name) n) where
  isValid := isValid_suffixed (isValid_constantOf hvalid) n
  notMem_languageWords := ((isCapital_constantOf name).suffixed n).notMem_languageWords
  ne_underscore := suffixed_ne_underscore (fun h => hne (eq_underscore_of_constantOf h)) n

/-- The constants of plain fields are plain, by induction on the fields. -/
theorem isPlain_of_mem_constantsFor (h : ∀ f ∈ fields, IsMember f) :
    ∀ constant ∈ constantsFor taken fields, IsPlain constant := by
  induction fields generalizing taken with
  | nil => exact List.forall_mem_nil _
  | cons field fields ih =>
    obtain ⟨hfield, hfields⟩ := List.forall_mem_cons.1 h
    obtain ⟨n, heq, -⟩ := exists_isLeastNew taken (constantOf field)
    refine List.forall_mem_cons.2 ⟨?_, ih hfields⟩
    rw [heq]
    exact isPlain_suffixed_constantOf hfield.isValid hfield.ne_underscore n

end Naming

/-! ## Models -/

open Naming (IsLegal IsMember IsPlain)

/-- **A model with legal names**, as its module spells them: the struct is called
without a mark, and so are the constants of the columns. -/
structure Model.HasLegalNames (m : Model) : Prop where
  struct : IsPlain m.name
  module : IsLegal (Naming.moduleName m.name)
  field : ∀ f ∈ m.fields, IsLegal (Naming.member f.name)
  hook : ∀ hook ∈ m.initHooks, IsLegal (Naming.member hook)
  constant : ∀ c ∈ Naming.columnConstants m.fields, IsPlain c

/-- A sound model is called by a plain name. -/
theorem Model.IsSound.isPlain_name {m : Model} (h : m.IsSound) : IsPlain m.name := by
  obtain ⟨hescapable, hkeyword⟩ := Bool.or_eq_false_iff.1 h.name_isFree
  refine ⟨h.name_isValid, fun hmem => ?_, (IsMember.mk h.name_isValid hescapable).ne_underscore⟩
  rw [Naming.isKeyword_iff.2 hmem] at hkeyword
  cases hkeyword

/-- **The names of a sound model are legal** if its members can be called as they are. -/
theorem Model.IsSound.hasLegalNames {m : Model} (h : m.IsSound) (hfields : ∀ f ∈ m.fields, IsMember f.name)
    (hhooks : ∀ hook ∈ m.initHooks, IsMember hook) : m.HasLegalNames where
  struct := h.isPlain_name
  module := Naming.isLegal_moduleName h.name_isValid h.isPlain_name.ne_underscore
  field := fun f hf => Naming.isLegal_member (hfields f hf)
  hook := fun hook hhook => Naming.isLegal_member (hhooks hook hhook)
  constant := Naming.isPlain_of_mem_constantsFor (List.forall_mem_map.2 hfields)

/-- **Every model that is extracted has legal names.** -/
theorem hasLegalNames_of_extract {d : Declarations} {r : Registry} (h : extract d = .ok r) :
    ∀ m ∈ r.models.values, m.HasLegalNames := by
  intro m hm
  obtain ⟨c, declared, hbuilt⟩ := Extraction.exists_buildModel_of_extract h hm
  obtain ⟨hfields, hhooks⟩ := Extraction.isMember_of_buildModel hbuilt
  exact ((isSound_of_extract h).models_areSound m hm).hasLegalNames hfields hhooks

end TypedTables

import Mathlib.Data.List.Basic
import TypedTables.Proofs.Extraction.Model
import TypedTables.Schema.Identifier
import TypedTables.Proofs.Text.Quoted
import TypedTables.Source.Naming
/-!
# TypedTables — letters of generated names

Names in generated sources are made of the letters of identifiers, a mark for
raw ones apart, so each stands in its line and ends where something else
begins. The constants of columns are new ones: none of them is called like a
constant that every module has.
-/

namespace TypedTables

namespace Identifier

variable {c : Char} {name : String}

/-- **A name of identifier letters**, as generated names are. -/
def IsWord (name : String) : Prop := ∀ c ∈ name.toList, isPart c = true

instance : Decidable (IsWord name) := List.decidableBAll (fun c => isPart c = true) name.toList

theorem isWord_ofList {cs : List Char} (h : cs.all isPart = true) : IsWord (String.ofList cs) := by
  intro c hc
  rw [String.toList_ofList] at hc
  exact List.all_eq_true.1 h c hc

theorem isWord_of_isValid (h : isValid name = true) : IsWord name := by
  obtain ⟨c, w, hname, -, hw⟩ := exists_cons_of_isValid h
  intro d hd
  rw [hname] at hd
  exact hw d hd

theorem IsWord.append {other : String} (h : IsWord name) (ho : IsWord other) : IsWord (name ++ other) := by
  intro c hc
  rw [String.toList_append, List.mem_append] at hc
  exact hc.elim (h c) (ho c)

theorem isLine_of_isWord (h : IsWord name) : Text.IsLine name := by
  intro c hc
  constructor <;>
    · rintro rfl
      exact absurd (h _ hc) (by decide)

/-- A letter of an identifier is ASCII. -/
theorem toNat_lt_of_isPart (h : isPart c = true) : c.toNat < 128 := by
  rcases Bool.or_eq_true_iff.1 h with h | h
  · rcases Bool.or_eq_true_iff.1 h with halpha | hdigit
    · exact toNat_lt_of_isStart (Bool.or_eq_true_iff.2 (.inl halpha))
    · have hle : c.toNat ≤ 57 := by
        simp only [Char.isDigit, Bool.and_eq_true, decide_eq_true_eq] at hdigit
        exact UInt32.le_iff_toNat_le.1 hdigit.2
      omega
  · obtain rfl := beq_iff_eq.1 h
    decide

/-- The letters of identifiers stay among themselves when their case changes. -/
theorem isPart_case (h : isPart c = true) : isPart c.toLower = true ∧ isPart c.toUpper = true := by
  have hascii : ∀ n < 128, isPart (Char.ofNat n) = true →
      isPart (Char.ofNat n).toLower = true ∧ isPart (Char.ofNat n).toUpper = true := by
    decide +kernel
  have hc := hascii c.toNat (toNat_lt_of_isPart h)
  rw [Char.ofNat_toNat] at hc
  exact hc h

end Identifier

namespace Naming

open Identifier (IsWord isPart)

variable {name : String} {taken : List String} {fields : List String}

/-! ## Words -/

/-- Snake case is made of the same letters, and of underscores. -/
theorem isPart_of_mem_snakeChars {cs : List Char} (h : ∀ c ∈ cs, isPart c = true) (afterSmall : Bool) :
    ∀ c ∈ snakeChars afterSmall cs, isPart c = true := by
  induction cs generalizing afterSmall with
  | nil => exact List.forall_mem_nil _
  | cons d cs ih =>
    have hd := h d List.mem_cons_self
    have hrest := fun small => ih (fun c hc => h c (List.mem_cons_of_mem d hc)) small
    have hlower := (Identifier.isPart_case hd).1
    unfold snakeChars
    split
    · split
      · exact List.forall_mem_cons.2 ⟨rfl, List.forall_mem_cons.2 ⟨hlower, hrest false⟩⟩
      · exact List.forall_mem_cons.2 ⟨hlower, hrest false⟩
    · exact List.forall_mem_cons.2 ⟨hd, hrest _⟩

theorem isWord_snakeCase (h : IsWord name) : IsWord (snakeCase name) := by
  intro c hc
  rw [snakeCase, String.toList_ofList] at hc
  exact isPart_of_mem_snakeChars h false c hc

theorem isWord_constantOf (h : IsWord name) : IsWord (constantOf name) := by
  intro c hc
  rw [constantOf, String.toList_map, List.mem_map] at hc
  obtain ⟨d, hd, rfl⟩ := hc
  exact (Identifier.isPart_case (isWord_snakeCase h d hd)).2

/-- The module of a model is a word, perhaps behind the mark of raw names. -/
theorem moduleName_eq (h : IsWord name) :
    ∃ word, IsWord word ∧ (moduleName name = word ∨ moduleName name = raw word) := by
  have hsnake := isWord_snakeCase h
  unfold moduleName
  simp only
  split
  · exact ⟨_, hsnake.append (by decide), .inl rfl⟩
  · split
    · exact ⟨_, hsnake, .inr rfl⟩
    · exact ⟨_, hsnake, .inl rfl⟩

theorem isLine_raw (h : IsWord name) : Text.IsLine (raw name) :=
  Text.isLine_append.2 ⟨by decide, Identifier.isLine_of_isWord h⟩

theorem isLine_moduleName (h : IsWord name) : Text.IsLine (moduleName name) := by
  obtain ⟨word, hword, hname | hname⟩ := moduleName_eq h <;> rw [hname]
  · exact Identifier.isLine_of_isWord hword
  · exact isLine_raw hword

theorem isLine_member (h : IsWord name) : Text.IsLine (member name) := by
  unfold member
  split
  · exact isLine_raw h
  · exact Identifier.isLine_of_isWord h

/-! ## Constants -/

theorem isWord_freshConstant (h : IsWord name) (n : Nat) : IsWord (freshConstant taken n name) := by
  induction n generalizing name with
  | zero => exact h
  | succ n ih =>
    unfold freshConstant
    split
    · exact ih (h.append (by decide))
    · exact h

/-- **A fresh constant is new**, if there is a suffix for every taken name that
is not shorter: each suffix makes the name longer than the one it was taken for. -/
theorem freshConstant_notMem_of_lt {n : Nat}
    (h : (taken.filter fun t => name.length ≤ t.length).length < n) : freshConstant taken n name ∉ taken := by
  induction n generalizing name with
  | zero => cases h
  | succ n ih =>
    unfold freshConstant
    split
    case isFalse hnew => simpa using hnew
    case isTrue hold =>
      have hmem : name ∈ taken := by simpa using hold
      have hlonger : name.length < (name ++ "_COLUMN").length := by
        rw [String.length_append]
        exact Nat.lt_add_of_pos_right (by decide +kernel)
      have hsub : taken.filter (fun t => (name ++ "_COLUMN").length ≤ t.length) =
          (taken.filter fun t => name.length ≤ t.length).filter fun t => (name ++ "_COLUMN").length ≤ t.length := by
        rw [List.filter_filter]
        refine List.filter_congr fun t _ => ?_
        rw [← Bool.decide_and, decide_eq_decide]
        omega
      -- the name that was taken is shorter than the next one, so there is one name less to avoid
      have hself : name ∈ taken.filter fun t => name.length ≤ t.length :=
        List.mem_filter.2 ⟨hmem, decide_eq_true (Nat.le_refl _)⟩
      have hless := List.length_filter_lt_length_iff_exists
        (p := fun t : String => decide ((name ++ "_COLUMN").length ≤ t.length)) |>.2
          ⟨name, hself, by simpa only [decide_eq_true_eq] using Nat.not_le.2 hlonger⟩
      refine ih ?_
      rw [hsub]
      omega

theorem freshConstant_notMem (taken : List String) (name : String) :
    freshConstant taken (taken.length + 1) name ∉ taken :=
  freshConstant_notMem_of_lt (Nat.lt_succ_of_le (List.length_filter_le _ _))

/-- The constants of some fields are new ones, by induction on the fields. -/
theorem notMem_of_mem_constantsFor (taken : List String) {n : String} (hn : n ∈ constantsFor taken fields) :
    n ∉ taken := by
  induction fields generalizing taken with
  | nil => cases hn
  | cons field fields ih =>
    rcases List.mem_cons.1 hn with rfl | hn
    · exact freshConstant_notMem _ _
    · exact fun hmem => ih _ hn (List.mem_cons_of_mem _ hmem)

theorem isWord_of_mem_constantsFor (taken : List String) (hfields : ∀ f ∈ fields, IsWord f) :
    ∀ n ∈ constantsFor taken fields, IsWord n := by
  induction fields generalizing taken with
  | nil => exact List.forall_mem_nil _
  | cons field fields ih =>
    obtain ⟨hfield, hrest⟩ := List.forall_mem_cons.1 hfields
    exact List.forall_mem_cons.2 ⟨isWord_freshConstant (isWord_constantOf hfield) _, ih _ hrest⟩

/-- **The constant of a column is a word**, and none that every module has. -/
theorem isWord_of_mem_columnConstants {fs : List Field} (h : ∀ f ∈ fs, Identifier.isValid f.name = true) :
    ∀ n ∈ columnConstants fs, IsWord n ∧ n ∉ reservedConstants := by
  have hwords : ∀ name ∈ fs.map (·.name), IsWord name := by
    intro name hname
    obtain ⟨f, hf, rfl⟩ := List.mem_map.1 hname
    exact Identifier.isWord_of_isValid (h f hf)
  exact fun n hn => ⟨isWord_of_mem_constantsFor _ hwords n hn, notMem_of_mem_constantsFor _ hn⟩

/-! ## Module paths -/

/-- A path is cut at its first separator. -/
theorem splitSegment_eq (cs : List Char) :
    cs = (splitSegment cs).1 ++ ((splitSegment cs).2.map fun rest => ':' :: ':' :: rest).getD [] := by
  fun_induction splitSegment cs with
  | case1 => rfl
  | case2 rest => rfl
  | case3 c cs _ segment rest hsplit ih =>
    rw [hsplit] at ih
    simpa using ih

/-- A path is made of its segments and of separators, by induction on how many
segments it has. -/
theorem mem_segments {n : Nat} {cs : List Char} (hn : cs.length < n) {c : Char} (hc : c ∈ cs) :
    c = ':' ∨ ∃ s ∈ segmentsWithin n cs, c ∈ s.toList := by
  induction n generalizing cs with
  | zero => cases hn
  | succ n ih =>
    have hcut := splitSegment_eq cs
    unfold segmentsWithin
    rcases hsplit : splitSegment cs with ⟨segment, _ | rest⟩ <;> rw [hsplit] at hcut
    · have hcs : cs = segment := by simpa using hcut
      exact .inr ⟨_, List.mem_singleton_self _, by rw [String.toList_ofList, ← hcs]; exact hc⟩
    · have hcs : cs = segment ++ ':' :: ':' :: rest := hcut
      have hlen : rest.length < n := by
        rw [hcs, List.length_append, List.length_cons, List.length_cons] at hn
        omega
      rw [hcs, List.mem_append, List.mem_cons, List.mem_cons] at hc
      rcases hc with hc | rfl | rfl | hc
      · exact .inr ⟨_, List.mem_cons_self, by rwa [String.toList_ofList]⟩
      · exact .inl rfl
      · exact .inl rfl
      · rcases ih hlen hc with rfl | ⟨s, hs, hc⟩
        · exact .inl rfl
        · exact .inr ⟨s, List.mem_cons_of_mem _ hs, hc⟩

/-- The segments of a path that can stand before a name are words. -/
theorem isWord_of_areSegments {segments : List String} {isFirst isRelative : Bool}
    (h : areSegments isFirst isRelative segments = true) : ∀ s ∈ segments, IsWord s := by
  induction segments generalizing isFirst isRelative with
  | nil => exact List.forall_mem_nil _
  | cons s segments ih =>
    unfold areSegments at h
    obtain ⟨hfits, hrest⟩ := Bool.and_eq_true_iff.1 h
    refine List.forall_mem_cons.2 ⟨?_, ih hrest⟩
    split at hfits
    case isTrue hs =>
      rcases Bool.or_eq_true_iff.1 hs with hs | hs <;> rw [beq_iff_eq.1 hs] <;> decide
    case isFalse =>
      split at hfits
      case isTrue hs =>
        rw [beq_iff_eq.1 hs]
        decide
      case isFalse =>
        simp only [Bool.and_eq_true] at hfits
        exact Identifier.isWord_of_isValid hfits.1.1

/-- **The letters of a module path** are those of words, and colons. -/
theorem isPart_of_isModulePath {path : String} (h : isModulePath path = true) :
    ∀ c ∈ path.toList, c = ':' ∨ isPart c = true := by
  have hpath : ∀ cs, areSegments true true (segments cs) = true → ∀ c ∈ cs, c = ':' ∨ isPart c = true := by
    intro cs hcs c hc
    rcases mem_segments (Nat.lt_succ_self cs.length) hc with rfl | ⟨s, hs, hc⟩
    · exact .inl rfl
    · exact .inr (isWord_of_areSegments hcs s hs c hc)
  unfold isModulePath at h
  simp only at h
  split at h
  case h_1 rest hlist =>
    rw [hlist]
    exact List.forall_mem_cons.2 ⟨.inl rfl, List.forall_mem_cons.2 ⟨.inl rfl, hpath rest h⟩⟩
  case h_2 => exact hpath _ h

/-- **A module path is one line.** -/
theorem isLine_of_isModulePath {path : String} (h : isModulePath path = true) : Text.IsLine path := by
  intro c hc
  rcases isPart_of_isModulePath h c hc with rfl | hpart
  · decide
  · constructor <;>
      · rintro rfl
        exact absurd hpart (by decide)

end Naming

end TypedTables

import Mathlib.Data.List.Nodup
import Mathlib.Tactic.Common
import TypedTables.Extraction.Field
import TypedTables.Extraction.Findings
import TypedTables.Proofs.Except
/-!
# TypedTables — findings and fields

A check that finds nothing has found that its condition holds, so a field in whose
declaration nothing was found can be relied on.
-/

namespace TypedTables

/-! ## Findings without errors

What it says that a check found nothing: its condition holds, and keys that
it compares differ. -/

namespace Extraction

variable {α κ : Type} {key : α → κ} {xs : List α}

@[simp] theorem errorUnless_eq_nil {holds : Bool} {e : ExtractionError} :
    errorUnless holds e = [] ↔ holds = true := by
  cases holds <;> simp [errorUnless]

/-- **Keys that never repeat are different.** -/
theorem nodup_of_repeated [BEq κ] [LawfulBEq κ] {seen : List κ} (h : repeated key seen xs = []) :
    (xs.map key).Nodup ∧ ∀ x ∈ xs, key x ∉ seen := by
  induction xs generalizing seen with
  | nil => exact ⟨.nil, nofun⟩
  | cons x xs ih =>
    unfold repeated at h
    split at h
    · nomatch h
    case isFalse hx =>
      obtain ⟨hnodup, hnew⟩ := ih h
      have hx : key x ∉ seen := by simpa using hx
      refine ⟨List.nodup_cons.2 ⟨?_, hnodup⟩, fun y hy => ?_⟩
      · intro hmem
        obtain ⟨y, hy, he⟩ := List.mem_map.1 hmem
        exact hnew y hy (he ▸ List.mem_cons_self)
      · rcases List.mem_cons.1 hy with rfl | hy
        · exact hx
        · exact fun hs => hnew y hy (List.mem_cons_of_mem _ hs)

/-- Keys that never collide are different. -/
theorem nodup_of_collisions [BEq κ] [LawfulBEq κ] {passed : List α} (h : collisions key passed xs = []) :
    (xs.map key).Nodup ∧ ∀ x ∈ xs, ∀ y ∈ passed, key y ≠ key x := by
  induction xs generalizing passed with
  | nil => exact ⟨.nil, nofun⟩
  | cons x xs ih =>
    unfold collisions at h
    split at h
    · nomatch h
    case h_2 hx =>
      obtain ⟨hnodup, hnew⟩ := ih h
      refine ⟨List.nodup_cons.2 ⟨?_, hnodup⟩, fun y hy => ?_⟩
      · intro hmem
        obtain ⟨y, hy, he⟩ := List.mem_map.1 hmem
        exact hnew y hy x List.mem_cons_self he.symm
      · rcases List.mem_cons.1 hy with rfl | hy
        · intro z hz he
          have hnone := List.find?_eq_none.1 hx z hz
          exact hnone (beq_iff_eq.2 he)
        · exact fun z hz => hnew y hy z (List.mem_cons_of_mem _ hz)

end Extraction

/-! ## Fields that pass

A field in whose declaration nothing was found is named by identifiers, has
a declared type that its semantic type and its column agree with, and has a
default that fits, if it has one. -/

namespace FieldType

theorem insideOptional?_optionalName (scalar : String) :
    insideOptional? (optionalName scalar) = some scalar := by
  have hlist : (optionalName scalar).toList = "Option<".toList ++ (scalar.toList ++ ['>']) := by
    simp [optionalName]
  have hdrop : ((optionalName scalar).toList.drop "Option<".toList.length) = scalar.toList ++ ['>'] := by
    rw [hlist, List.drop_left]
  have hstarts : "Option<".toList.isPrefixOf (optionalName scalar).toList = true := by
    rw [hlist, List.isPrefixOf_iff_prefix]
    exact List.prefix_append _ _
  have hlen : "Option<".toList.length < (optionalName scalar).toList.length := by
    rw [hlist, List.length_append, List.length_append]
    simp
  have hlast : (optionalName scalar).toList.getLast? = some '>' := by
    rw [hlist, ← List.append_assoc, List.getLast?_append]
    rfl
  unfold insideOptional?
  simp only [hstarts, hlast, hdrop, hlen, decide_true, beq_self_eq_true, Bool.and_self, if_true,
    List.dropLast_concat, String.ofList_toList]

theorem eq_optionalName {spelling inner : String} (h : insideOptional? spelling = some inner) :
    spelling = optionalName inner := by
  unfold insideOptional? at h
  simp only [Bool.and_eq_true, List.isPrefixOf_iff_prefix, decide_eq_true_eq, beq_iff_eq] at h
  split at h
  case isFalse => nomatch h
  case isTrue hc =>
    obtain ⟨⟨⟨rest, hrest⟩, hlen⟩, hlast⟩ := hc
    obtain rfl := Option.some.inj h
    rw [← hrest] at hlen hlast ⊢
    have hne : rest ≠ [] := by
      rintro rfl
      simp at hlen
    obtain ⟨inside, rfl⟩ : ∃ inside, rest = inside ++ ['>'] := by
      have hl : rest.getLast? = some (rest.getLast hne) := List.getLast?_eq_some_getLast hne
      rw [List.getLast?_append, hl, Option.some_or] at hlast
      exact List.getLast?_eq_some_iff.1 (hl.trans hlast)
    have hs : spelling = String.ofList ("Option<".toList ++ (inside ++ ['>'])) := by
      rw [hrest, String.ofList_toList]
    rw [hs, List.drop_left, List.dropLast_concat, optionalName, String.ofList_append,
      String.ofList_append, String.ofList_toList, String.append_assoc]

/-- **A spelling is split as it was put together.** -/
theorem splitSpelling_eq {spelling base : String} {nullable : Bool}
    (h : splitSpelling spelling = (base, nullable)) :
    spelling = (if nullable then optionalName base else base) ∧
      (nullable = true ↔ ∃ scalar, spelling = optionalName scalar) := by
  unfold splitSpelling at h
  split at h
  case h_1 inner hi =>
    obtain ⟨rfl, rfl⟩ := Prod.mk.inj h
    have hs := eq_optionalName hi
    exact ⟨hs, fun _ => ⟨_, hs⟩, fun _ => rfl⟩
  case h_2 hi =>
    obtain ⟨rfl, rfl⟩ := Prod.mk.inj h
    refine ⟨rfl, nofun, ?_⟩
    rintro ⟨scalar, rfl⟩
    rw [insideOptional?_optionalName] at hi
    nomatch hi

end FieldType

/-- **Types that belong together**: the declared type, without an optional
wrapper, keeps its values in the same kind of column as the semantic type,
and the wrapper is there just if the field may be empty. -/
structure Field.IsTyped (semanticType : SemanticType) (declaredType : String) (nullable : Bool) :
    Prop where
  affinity : ∃ scalar declared,
    declaredType = (if nullable then FieldType.optionalName scalar else scalar) ∧
    SemanticType.ofDeclared? scalar = some declared ∧ declared.affinity = semanticType.affinity
  nullable_iff : nullable = true ↔ ∃ scalar, declaredType = FieldType.optionalName scalar

/-- **A field that can be stored and generated.** -/
structure Field.IsSound (f : Field) : Prop where
  name_isValid : Identifier.isValid f.name = true
  columnName_isValid : Identifier.isValid f.columnName = true
  isTyped : IsTyped f.semanticType f.declaredType f.nullable
  isPrimaryKey_of_isAutoIncrement : f.isAutoIncrement = true → f.isPrimaryKey = true
  isIntegral_of_isAutoIncrement : f.isAutoIncrement = true → f.semanticType.isIntegral = true
  default_fits : ∀ v ∈ f.defaultValue, v.fits f.semanticType = true

namespace Extraction

variable {model : String} {member : MemberDeclaration} {attributes : FieldAttributes}

/-- The usual type of a semantic type agrees with it. -/
theorem isTyped_usualType (t : SemanticType) : Field.IsTyped t t.usualType.name false where
  affinity := by cases t <;> exact ⟨_, _, rfl, rfl, rfl⟩
  nullable_iff := by
    have hsplit : FieldType.splitSpelling t.usualType.name = (t.usualType.name, false) := by
      cases t <;> rfl
    exact (FieldType.splitSpelling_eq hsplit).2

theorem isTyped_of_typeDeclared {field spelling : String} {chosen : Option SemanticType}
    {typing : FieldTyping} (h : typeDeclared model field spelling chosen = .ok typing) :
    Field.IsTyped typing.semanticType typing.spelling typing.nullable := by
  unfold typeDeclared at h
  rcases hsplit : FieldType.splitSpelling (Text.withoutBlanks spelling) with ⟨base, nullable⟩
  simp only [hsplit] at h
  rcases hdeclared : SemanticType.ofDeclared? base with _ | declared
  · simp only [hdeclared] at h
    exact absurd h throw_ne_ok
  · simp only [hdeclared] at h
    split at h
    · exact absurd h throw_bind_ne_ok
    split at h
    · exact absurd h throw_bind_ne_ok
    case isFalse ha =>
      obtain rfl := pure_eq_ok.1 h
      obtain ⟨hspelling, hnullable⟩ := FieldType.splitSpelling_eq hsplit
      refine ⟨⟨base, declared, rfl, hdeclared, (not_not.1 ha).symm⟩, ?_⟩
      rw [← hspelling]
      exact hnullable

/-- **A member that is a field has types that belong together.** -/
theorem isTyped_of_typeField {typing : FieldTyping} (h : typeField model member attributes = .ok typing) :
    Field.IsTyped typing.semanticType typing.spelling typing.nullable := by
  unfold typeField at h
  split at h
  · nomatch h
  · obtain rfl := Except.ok.inj h
    exact isTyped_usualType _
  · exact isTyped_of_typeDeclared h

theorem isValid_of_identifierErrors {name : String} (h : identifierErrors model name = []) :
    Identifier.isValid name = true :=
  errorUnless_eq_nil.1 h

theorem isValid_of_sourceNameErrors {name : String} {rawAllowed : Bool}
    (h : sourceNameErrors model name rawAllowed = []) :
    Identifier.isValid name = true ∧
      (Naming.isUnescapable name || (!rawAllowed && Naming.isKeyword name)) = false := by
  unfold sourceNameErrors at h
  split at h
  · nomatch h
  case isFalse hv =>
    rw [errorUnless_eq_nil] at h
    rw [Bool.not_eq_true'] at h
    exact ⟨by simpa using hv, h⟩

/-- **A field in which nothing was found is sound**, once its name is. -/
theorem isSound_of_buildField {f : Field} (hname : Identifier.isValid member.name = true)
    (he : (buildField model member attributes).errors = [])
    (hf : (buildField model member attributes).result = some f) : f.IsSound := by
  unfold buildField at he hf
  split at he
  · simp at he
  case h_2 typing htyping =>
    simp only [htyping, Option.some.injEq] at hf
    obtain ⟨hcolumn, hattributes⟩ := List.append_eq_nil_iff.1 he
    obtain ⟨hrest, hdefault⟩ := List.append_eq_nil_iff.1 hattributes
    obtain ⟨hkey, hintegral⟩ := List.append_eq_nil_iff.1 hrest
    rw [errorUnless_eq_nil, Bool.or_eq_true, Bool.not_eq_true'] at hkey hintegral
    rw [errorUnless_eq_nil, Option.all_eq_true] at hdefault
    subst hf
    exact {
      name_isValid := hname
      columnName_isValid := isValid_of_identifierErrors hcolumn
      isTyped := isTyped_of_typeField htyping
      isPrimaryKey_of_isAutoIncrement := fun ha => hkey.resolve_left fun hn => Bool.noConfusion (hn.symm.trans ha)
      isIntegral_of_isAutoIncrement := fun ha =>
        hintegral.resolve_left fun hn => Bool.noConfusion (hn.symm.trans ha)
      default_fits := hdefault }

/-- A field is called like its member, and its column as it is declared. -/
theorem name_of_buildField {f : Field} (hf : (buildField model member attributes).result = some f) :
    f.name = member.name := by
  unfold buildField at hf
  split at hf
  · nomatch hf
  · obtain rfl := Option.some.inj hf
    rfl

end Extraction

end TypedTables

import Mathlib.Data.List.Forall2
import TypedTables.Proofs.Extraction.Lineage
import TypedTables.Proofs.Extraction.Model
/-!
# TypedTables — what a model takes over

A model that is built has what its lineage declares and nothing besides: the
fields and hooks of its members from the remotest ancestor on, the foreign
keys and unique groups in the same order, and the package and the provider
that the nearest one states. No member is lost or put in another place,
because one that could not be built, or has a name that was used before,
would have been reported.
-/

namespace TypedTables

/-! ## Members and fields -/

/-- **The field of a member**: all its data are those of the declaration. A
semantic type that is not stated is that of the declared type, and a declared
type that is not stated is the usual one of the semantic type. -/
structure Field.IsOf (f : Field) (member : MemberDeclaration) (a : FieldAttributes) : Prop where
  attributes : member.field = some a
  name : f.name = member.name
  columnName : f.columnName = a.column.getD member.name
  declaredType : f.declaredType =
    (member.declaredType.map Text.withoutBlanks).getD f.semanticType.usualType.name
  semanticType : some f.semanticType =
    a.semanticType.or (SemanticType.ofDeclared? (FieldType.splitSpelling f.declaredType).1)
  nullable : f.nullable = (FieldType.splitSpelling f.declaredType).2
  isPrimaryKey : f.isPrimaryKey = a.isPrimaryKey
  isAutoIncrement : f.isAutoIncrement = a.isAutoIncrement
  isIndexed : f.isIndexed = a.isIndexed
  isUnique : f.isUnique = a.isUnique
  isNotNull : f.isNotNull = a.isNotNull
  defaultValue : f.defaultValue = a.defaultValue

/-- The members of a lineage, those of the remotest ancestor first. -/
def ModelDeclaration.membersOf (chain : List ModelDeclaration) : List MemberDeclaration :=
  chain.reverse.flatMap (·.members)

/-- **A model that is flattened**: what its lineage declares, nearest first, is
what it has. -/
structure Model.IsFlattened (built : Model) (m : ModelDeclaration) (chain : List ModelDeclaration) :
    Prop where
  name : built.name = m.name
  tableName : built.tableName = m.table.getD m.name
  packagePath : chain.findSome? (·.packagePath) = some built.packagePath
  provider : chain.findSome? (·.provider) = some built.provider.name
  members_nodup : ((ModelDeclaration.membersOf chain).map (·.name)).Nodup
  fields : List.Forall₂ (fun member f => ∃ a, Field.IsOf f member a)
    ((ModelDeclaration.membersOf chain).filter (·.field.isSome)) built.fields
  initHooks : built.initHooks = ((ModelDeclaration.membersOf chain).filter (·.isHook)).map (·.name)
  foreignKeys : built.foreignKeys = chain.reverse.flatMap (·.foreignKeys)
  uniqueGroups : built.uniqueGroups = chain.reverse.flatMap (·.uniqueGroups)

namespace Extraction

variable {model : String} {member : MemberDeclaration} {a : FieldAttributes} {typing : FieldTyping}

/-! ## The types of a field -/

/-- The types of a field are read off what is declared. -/
structure FieldTyping.IsOf (typing : FieldTyping) (declared : Option String) (chosen : Option SemanticType) :
    Prop where
  spelling : typing.spelling =
    (declared.map Text.withoutBlanks).getD typing.semanticType.usualType.name
  semanticType : some typing.semanticType =
    chosen.or (SemanticType.ofDeclared? (FieldType.splitSpelling typing.spelling).1)
  nullable : typing.nullable = (FieldType.splitSpelling typing.spelling).2

theorem isOf_of_typeDeclared {field spelling : String} {chosen : Option SemanticType}
    (h : typeDeclared model field spelling chosen = .ok typing) : typing.IsOf (some spelling) chosen := by
  unfold typeDeclared at h
  rcases hsplit : FieldType.splitSpelling (Text.withoutBlanks spelling) with ⟨base, nullable⟩
  rcases hdeclared : SemanticType.ofDeclared? base with _ | declared
  · simp only [hsplit, hdeclared] at h
    exact absurd h throw_ne_ok
  · simp only [hsplit, hdeclared] at h
    split at h
    · exact absurd h throw_bind_ne_ok
    split at h
    · exact absurd h throw_bind_ne_ok
    obtain rfl := pure_eq_ok.1 h
    have hspelling := (FieldType.splitSpelling_eq hsplit).1
    refine ⟨hspelling.symm, ?_, ?_⟩
    · dsimp only
      rw [← hspelling, hsplit]
      dsimp only
      rw [hdeclared]
      cases chosen <;> rfl
    · dsimp only
      rw [← hspelling, hsplit]

theorem isOf_of_typeField (h : typeField model member a = .ok typing) :
    typing.IsOf member.declaredType a.semanticType := by
  unfold typeField at h
  rcases hdeclared : member.declaredType with _ | spelling
  · rcases hchosen : a.semanticType with _ | t
    · rw [hdeclared, hchosen] at h
      cases h
    · rw [hdeclared, hchosen] at h
      obtain rfl := Except.ok.inj h
      refine ⟨rfl, rfl, ?_⟩
      cases t <;> rfl
  · rw [hdeclared] at h
    exact isOf_of_typeDeclared h

/-! ## The fields of a lineage -/

/-- A member with attributes in which nothing was found has its field. -/
theorem exists_of_buildMember (ha : member.field = some a) (he : (buildMember model member).errors = []) :
    ∃ f, (buildMember model member).result = some f ∧ Field.IsOf f member a := by
  unfold buildMember at he ⊢
  simp only [ha, List.append_eq_nil_iff] at he ⊢
  have hfield := he.2
  unfold buildField at hfield ⊢
  rcases htyping : typeField model member a with e | typing
  · simp [htyping] at hfield
  · have htypes := isOf_of_typeField htyping
    simp only
    exact ⟨_, rfl, {
      attributes := ha
      name := rfl
      columnName := rfl
      declaredType := htypes.spelling
      semanticType := htypes.semanticType
      nullable := htypes.nullable
      isPrimaryKey := rfl
      isAutoIncrement := rfl
      isIndexed := rfl
      isUnique := rfl
      isNotNull := rfl
      defaultValue := rfl }⟩

/-- **The fields are those of the members that have one**, in their order and
once each, by induction on the members. -/
theorem forall₂_of_buildMembers {seen : List String} {members : List MemberDeclaration}
    (he : (buildMembers model seen members).errors = []) :
    List.Forall₂ (fun member f => ∃ a, Field.IsOf f member a) (members.filter (·.field.isSome))
        (buildMembers model seen members).result ∧
      (members.map (·.name)).Nodup ∧ ∀ member ∈ members, member.name ∉ seen := by
  induction members generalizing seen with
  | nil => exact ⟨.nil, .nil, List.forall_mem_nil _⟩
  | cons member members ih =>
    unfold buildMembers at he ⊢
    by_cases hseen : seen.contains member.name = true
    · rw [if_pos hseen] at he
      cases he
    · rw [if_neg hseen] at he ⊢
      obtain ⟨hone, hrest⟩ := List.append_eq_nil_iff.1 he
      obtain ⟨hfields, hnodup, hnew⟩ := ih hrest
      have hnames : ((member :: members).map (·.name)).Nodup := by
        rw [List.map_cons, List.nodup_cons]
        refine ⟨fun hmem => ?_, hnodup⟩
        obtain ⟨other, hother, hname⟩ := List.mem_map.1 hmem
        exact hnew other hother (hname ▸ List.mem_cons_self)
      have hunseen : ∀ other ∈ member :: members, other.name ∉ seen := by
        refine List.forall_mem_cons.2 ⟨by simpa using hseen, fun other hother hmem => ?_⟩
        exact hnew other hother (List.mem_cons_of_mem _ hmem)
      refine ⟨?_, hnames, hunseen⟩
      -- a member without attributes is filtered out on one side and adds nothing on the other
      rcases hattributes : member.field with _ | a
      · have hnone : (buildMember model member).result = none := by
          unfold buildMember
          rw [hattributes]
        rw [List.filter_cons_of_neg (by rw [hattributes]; exact Bool.false_ne_true)]
        dsimp only
        rw [hnone]
        exact hfields
      · obtain ⟨f, hf, hof⟩ := exists_of_buildMember hattributes hone
        rw [List.filter_cons_of_pos (by rw [hattributes]; rfl)]
        dsimp only
        rw [hf]
        exact .cons ⟨a, hof⟩ hfields

/-- Where no key is repeated, each is the first of its kind. -/
theorem firsts_eq_self {α κ : Type} [BEq κ] [LawfulBEq κ] {key : α → κ} {seen : List κ} {xs : List α}
    (h : (xs.map key).Nodup) (hnew : ∀ x ∈ xs, key x ∉ seen) : firsts key seen xs = xs := by
  induction xs generalizing seen with
  | nil => rfl
  | cons x xs ih =>
    rw [List.map_cons, List.nodup_cons] at h
    rw [List.forall_mem_cons] at hnew
    have hrest : ∀ y ∈ xs, key y ∉ key x :: seen := by
      intro y hy hmem
      rcases List.mem_cons.1 hmem with hsame | hseen
      · exact h.1 (hsame ▸ List.mem_map_of_mem hy)
      · exact hnew.2 y hy hseen
    rw [firsts, if_neg (by simpa using hnew.1), ih h.2 hrest]

/-! ## Models -/

/-- The provider of a model is the resolved one of the name that is stated. -/
theorem name_of_findProvider {c : Context} {name : Option String} {p : Provider}
    (h : (findProvider c model name).result = some p) : name = some p.name := by
  unfold findProvider at h
  rcases name with _ | name
  · cases h
  · rcases hfound : c.provider? name with _ | q
    · simp only [hfound] at h
      cases h
    · simp only [hfound] at h
      obtain rfl := Option.some.inj h
      have hname := List.find?_some (p := fun p : Provider => p.name == name) hfound
      rw [beq_iff_eq.1 hname]

/-- **A model that is built from its lineage is flattened.** -/
theorem isFlattened_of_buildFromLineage {c : Context} {m : ModelDeclaration}
    {chain : List ModelDeclaration} {built : Model}
    (h : (buildFromLineage c m chain).result = some built) : built.IsFlattened m chain := by
  unfold buildFromLineage at h
  simp only at h
  split at h
  case h_2 => cases h
  case h_1 provider path herrors hprovider hpath =>
    obtain rfl := Option.some.inj h
    simp only [List.append_eq_nil_iff] at herrors
    obtain ⟨⟨⟨⟨⟨-, hmembers⟩, -⟩, -⟩, -⟩, -⟩ := herrors
    obtain ⟨hfields, hnodup, hnew⟩ := forall₂_of_buildMembers hmembers
    -- no name comes twice, so that hooks are taken from all members
    have hfirsts : firsts (·.name) [] (ModelDeclaration.membersOf chain) = ModelDeclaration.membersOf chain :=
      firsts_eq_self hnodup hnew
    exact {
      name := rfl
      tableName := rfl
      packagePath := hpath
      provider := name_of_findProvider hprovider
      members_nodup := hnodup
      fields := hfields
      initHooks := congrArg (fun members => (members.filter (·.isHook)).map (·.name)) hfirsts
      foreignKeys := rfl
      uniqueGroups := rfl }

/-- What is built has a lineage, and is flattened from it. -/
theorem isFlattened_of_buildModel {c : Context} {m : ModelDeclaration} {built : Model}
    (h : (buildModel c m).result = some built) :
    ∃ chain, lineage c.declaredModels m = .ok chain ∧ built.IsFlattened m chain := by
  unfold buildModel at h
  rcases hchain : lineage c.declaredModels m with e | chain
  · rw [hchain] at h
    cases h
  · rw [hchain] at h
    exact ⟨chain, rfl, isFlattened_of_buildFromLineage h⟩

end Extraction

/-! ## What is extracted is what is declared

Where nothing is found in the declarations, nothing is lost on the way to the
registry. Every provider is resolved, every model that is not abstract is
built, and each model has what its lineage declares. -/

namespace Extraction

variable {d : Declarations} {r : Registry}

/-- What the models of a project are built with. -/
def contextOf (d : Declarations) : Context :=
  ⟨providerDirectory d.providers, modelDirectory d.models,
    (resolveProviders (providerDirectory d.providers)).result⟩

/-- **Declarations in which nothing was found**, part by part. -/
structure IsClean (d : Declarations) : Prop where
  providerNames : providerNameErrors [] d.providers = []
  modelNames : modelNameErrors [] d.models = []
  providers : (resolveProviders (providerDirectory d.providers)).errors = []
  models : (buildModels (contextOf d)).errors = []

theorem isClean_of_extract (h : extract d = .ok r) :
    IsClean d ∧ r = register (contextOf d).providers (buildModels (contextOf d)).result := by
  obtain ⟨hnone, rfl⟩ := errors_of_extract h
  simp only [findings, List.append_eq_nil_iff] at hnone
  obtain ⟨⟨⟨⟨⟨⟨⟨hproviders, hnames⟩, hresolved⟩, hbuilt⟩, -⟩, -⟩, -⟩, -⟩ := hnone
  exact ⟨⟨hproviders, hnames, hresolved, hbuilt⟩, rfl⟩

/-- A declared provider has a name. -/
theorem isNamed_of_providerNameErrors {seen : List String} {ps : List ProviderDeclaration}
    (h : providerNameErrors seen ps = []) : ∀ p ∈ ps, Text.allBlank p.name = false := by
  induction ps generalizing seen with
  | nil => exact List.forall_mem_nil _
  | cons p ps ih =>
    unfold providerNameErrors at h
    by_cases hblank : Text.allBlank p.name = true
    · rw [if_pos hblank] at h
      cases h
    rw [if_neg hblank] at h
    by_cases hseen : seen.contains p.name = true
    · rw [if_pos hseen] at h
      cases h
    · rw [if_neg hseen] at h
      exact List.forall_mem_cons.2 ⟨eq_false_of_ne_true hblank, ih (List.append_eq_nil_iff.1 h).2⟩

/-- Declarations that all have names of their own are all filed. -/
theorem values_perm_of_named {α : Type} {name : α → String} {ds : List α} (h : (ds.map name).Nodup)
    (hnamed : ∀ x ∈ ds, Text.allBlank (name x) = false) :
    (Directory.ofList ((ds.filter fun x => !Text.allBlank (name x)).map fun x => (name x, x))).values.Perm
      ds := by
  have hall : ds.filter (fun x => !Text.allBlank (name x)) = ds := by
    refine List.filter_eq_self.2 fun x hx => ?_
    rw [hnamed x hx]
    rfl
  have hperm := (perm_of_filed (fun x => !Text.allBlank (name x)) h).map Prod.snd
  rw [hall, List.map_map] at hperm
  rw [hall]
  exact hperm.trans (.of_eq (List.map_id ds))

/-- Results that are all there are called like what they come from. -/
theorem map_name_filterMap {α β : Type} {f : α → Option β} {name : α → String} {name' : β → String}
    {xs : List α} (h : ∀ x ∈ xs, ∃ y, f x = some y ∧ name' y = name x) :
    (xs.filterMap f).map name' = xs.map name := by
  induction xs with
  | nil => rfl
  | cons x xs ih =>
    rw [List.forall_mem_cons] at h
    obtain ⟨⟨y, hy, hname⟩, hrest⟩ := h
    rw [List.filterMap_cons_some hy, List.map_cons, List.map_cons, hname, ih hrest]

namespace IsClean

variable (h : IsClean d)
include h

theorem modelNames_nodup : (d.models.map (·.name)).Nodup :=
  (nodup_of_repeated (repeated_of_modelNameErrors h.modelNames)).1

theorem providerNames_nodup : (d.providers.map (·.name)).Nodup :=
  (nodup_of_repeated (repeated_of_providerNameErrors h.providerNames)).1

theorem modelDirectory_perm : (modelDirectory d.models).values.Perm d.models :=
  values_perm_of_named h.modelNames_nodup (isNamed_of_modelNameErrors h.modelNames)

theorem providerDirectory_perm : (providerDirectory d.providers).values.Perm d.providers :=
  values_perm_of_named h.providerNames_nodup (isNamed_of_providerNameErrors h.providerNames)

/-- **Every declared provider is resolved**, under its name. -/
theorem providerNames_perm : ((contextOf d).providers.map (·.name)).Perm (d.providers.map (·.name)) := by
  have hnames : (contextOf d).providers.map (·.name) =
      (providerDirectory d.providers).values.map (·.name) :=
    map_name_filterMap fun _ hp => exists_of_resolveProviders h.providers hp
  rw [hnames]
  exact h.providerDirectory_perm.map _

theorem isSome_provider? {name : String}
    (hdeclared : (contextOf d).declaredProviders.contains name = true) :
    ((contextOf d).provider? name).isSome = true := by
  obtain ⟨p, hfound⟩ := Option.isSome_iff_exists.1 hdeclared
  obtain ⟨hp, rfl⟩ := mem_of_find?_filed h.providerNames_nodup hfound
  have hmem : p.name ∈ (contextOf d).providers.map (·.name) :=
    h.providerNames_perm.mem_iff.2 (List.mem_map_of_mem hp)
  obtain ⟨resolved, hresolved, hsame⟩ := List.mem_map.1 hmem
  exact List.find?_isSome.2 ⟨resolved, hresolved, beq_iff_eq.2 hsame⟩

/-- **Every model that is not abstract is built**, from its lineage. -/
theorem exists_built {m : ModelDeclaration} (hm : m ∈ d.models) (ha : m.isAbstract = false) :
    ∃ chain built, lineage (modelDirectory d.models) m = .ok chain ∧
      (buildModel (contextOf d) m).result = some built ∧ built.IsFlattened m chain := by
  have hmem : m ∈ (contextOf d).declaredModels.values.filter (!·.isAbstract) :=
    List.mem_filter.2 ⟨h.modelDirectory_perm.mem_iff.2 hm, by rw [ha]; rfl⟩
  have hnone := List.flatMap_eq_nil_iff.1 h.models m hmem
  obtain ⟨built, hbuilt⟩ := exists_of_buildModel (fun _ => h.isSome_provider?) hnone
  obtain ⟨chain, hchain, hflattened⟩ := isFlattened_of_buildModel hbuilt
  exact ⟨chain, built, hchain, hbuilt, hflattened⟩

end IsClean

/-- What is registered under names of its own is listed by them. -/
theorem names_ofList_perm {α : Type} {name : α → String} {xs : List α} (h : (xs.map name).Nodup) :
    (Directory.ofList (xs.map fun x => (name x, x))).names.Perm (xs.map name) := by
  have hpairs : ((xs.map fun x => (name x, x)).map Prod.fst) = xs.map name := by
    rw [List.map_map]
    rfl
  rw [← hpairs] at h ⊢
  exact (Directory.entries_ofList_perm h).map Prod.fst

end Extraction

open Extraction in
/-- **Inheritance is flattened.** The registry that is extracted has the models
that are not abstract and the providers, each of them once and under its name.
A model has one lineage, and from it all that it has: its own table; the
package and the provider of the nearest that states one; and the fields, hooks,
foreign keys and unique groups of all of them, the remotest first. -/
theorem inheritance_is_flattened {d : Declarations} {r : Registry} (h : extract d = .ok r) :
    r.models.names.Perm ((d.models.filter (!·.isAbstract)).map (·.name)) ∧
    r.providers.names.Perm (d.providers.map (·.name)) ∧
    ∀ m ∈ d.models, m.isAbstract = false → ∃ chain built,
      ModelDeclaration.IsLineage d.models m chain ∧
      (∀ other, ModelDeclaration.IsLineage d.models m other → other = chain) ∧
      r.model? m.name = some built ∧ built.IsFlattened m chain ∧
      r.provider? built.provider.name = some built.provider := by
  obtain ⟨hclean, rfl⟩ := isClean_of_extract h
  have hmodels : ((buildModels (contextOf d)).result.map (·.name)).Nodup :=
    nodup_buildModels hclean.modelNames rfl
  have hproviders : ((contextOf d).providers.map (·.name)).Nodup :=
    nodup_resolveProviders hclean.providerNames
  have hregistered : ∀ m ∈ (buildModels (contextOf d)).result, m.provider ∈ (contextOf d).providers :=
    fun m hm => (isSound_of_mem_buildModels hm).2
  refine ⟨?_, ?_, ?_⟩
  · -- each of the declared models is built, so their names are the names of what is built
    have hnames : (buildModels (contextOf d)).result.map (·.name) =
        ((contextOf d).declaredModels.values.filter (!·.isAbstract)).map (·.name) := by
      refine map_name_filterMap fun m hm => ?_
      obtain ⟨hdeclared, ha⟩ := List.mem_filter.1 hm
      obtain ⟨_, built, -, hbuilt, hflattened⟩ :=
        hclean.exists_built (hclean.modelDirectory_perm.mem_iff.1 hdeclared) (by simpa using ha)
      exact ⟨built, hbuilt, hflattened.name⟩
    have hperm := names_ofList_perm hmodels
    rw [models_register]
    rw [hnames] at hperm
    exact hperm.trans ((hclean.modelDirectory_perm.filter _).map _)
  · rw [providers_register hproviders hregistered]
    exact (names_ofList_perm hproviders).trans hclean.providerNames_perm
  · intro m hm ha
    obtain ⟨chain, built, hchain, hbuilt, hflattened⟩ := hclean.exists_built hm ha
    have hlineage := isLineage_of_lineage hclean.modelNames_nodup hchain
    have hmem : built ∈ (buildModels (contextOf d)).result := by
      refine List.mem_filterMap.2 ⟨m, List.mem_filter.2 ⟨hclean.modelDirectory_perm.mem_iff.2 hm, ?_⟩, hbuilt⟩
      rw [ha]
      rfl
    refine ⟨chain, built, hlineage, fun other hother => hother.unique hclean.modelNames_nodup hlineage, ?_,
      hflattened, ?_⟩
    · rw [Registry.model?, models_register, ← hflattened.name]
      exact find?_ofList hmodels hmem
    · rw [Registry.provider?, providers_register hproviders hregistered]
      exact find?_ofList hproviders (hregistered built hmem)

/-- A book takes over the key of the base it extends. -/
theorem inheritance_is_flattened_book :
    ∃ r, extract libraryDeclarations = .ok r ∧ r.models.names.Perm ["Book", "Author"] ∧
      r.providers.names.Perm ["library"] ∧ ∃ book base built,
        libraryDeclarations.models.head? = some base ∧ libraryDeclarations.models[1]? = some book ∧
        r.model? "Book" = some built ∧ built.IsFlattened book [book, base] ∧
        built.fields.map (·.name) = ["id", "title", "author"] := by
  have hok := extract_of_errors_eq_nil
    (show (Extraction.findings libraryDeclarations).errors = [] by decide +kernel)
  obtain ⟨hmodels, hproviders, hflattened⟩ := inheritance_is_flattened hok
  refine ⟨_, hok, hmodels, hproviders, libraryDeclarations.models[1], libraryDeclarations.models[0], ?_⟩
  have hbook : libraryDeclarations.models[1] ∈ libraryDeclarations.models := List.getElem_mem _
  have hlineage : ModelDeclaration.IsLineage libraryDeclarations.models libraryDeclarations.models[1]
      [libraryDeclarations.models[1], libraryDeclarations.models[0]] :=
    .child rfl (List.getElem_mem _) (.root rfl)
  obtain ⟨chain, built, -, hunique, hfound, hbuilt, -⟩ := hflattened _ hbook rfl
  obtain rfl := hunique _ hlineage
  refine ⟨built, rfl, rfl, hfound, hbuilt, ?_⟩
  obtain ⟨id, fields, ⟨_, hid⟩, hrest, hall⟩ := List.forall₂_cons_left_iff.1 hbuilt.fields
  obtain ⟨title, fields', ⟨_, htitle⟩, hrest', rfl⟩ := List.forall₂_cons_left_iff.1 hrest
  obtain ⟨author, fields'', ⟨_, hauthor⟩, hnone, rfl⟩ := List.forall₂_cons_left_iff.1 hrest'
  obtain rfl := List.forall₂_nil_left_iff.1 hnone
  rw [hall, List.map_cons, List.map_cons, List.map_cons, hid.name, htitle.name, hauthor.name]
  rfl

end TypedTables

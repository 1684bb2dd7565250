import TypedTables.Proofs.Extraction.Registry
import TypedTables.Proofs.Registry.Directory
/-!
# TypedTables — names of an extracted registry

What is extracted is filed under its own name. The names that generated sources
spell out besides those of models and fields are identifiers as well: those of
providers and of hooks.
-/

namespace TypedTables

/-- **A name that a member can have**: an identifier that is written raw if need
be. -/
structure Naming.IsMember (name : String) : Prop where
  isValid : Identifier.isValid name = true
  isUnescapable_eq_false : isUnescapable name = false

/-- **A registry of providers under their own names**, which are identifiers, as
are those of hooks. -/
structure Registry.IsNamed (r : Registry) : Prop where
  providers_areFiled : r.providers.IsFiledBy (·.name)
  provider_isValid : ∀ p ∈ r.providers.values, Identifier.isValid p.name = true
  hook_isValid : ∀ m ∈ r.models.values, ∀ hook ∈ m.initHooks, Identifier.isValid hook = true

namespace Extraction

variable {model : String} {seen : List String} {members : List MemberDeclaration}

theorem isValid_of_providerNameErrors {ps : List ProviderDeclaration} (h : providerNameErrors seen ps = []) :
    ∀ p ∈ ps, Identifier.isValid p.name = true := by
  induction ps generalizing seen with
  | nil => exact List.forall_mem_nil _
  | cons p ps ih =>
    unfold providerNameErrors at h
    split at h
    · cases h
    · split at h
      · cases h
      · obtain ⟨hp, hps⟩ := List.append_eq_nil_iff.1 h
        exact List.forall_mem_cons.2 ⟨errorUnless_eq_nil.1 hp, ih hps⟩

theorem mem_of_mem_firsts {α κ : Type} [BEq κ] {key : α → κ} {seen : List κ} {xs : List α} {x : α}
    (h : x ∈ firsts key seen xs) : x ∈ xs := by
  induction xs generalizing seen with
  | nil => exact h
  | cons y ys ih =>
    unfold firsts at h
    split at h
    · exact List.mem_cons_of_mem y (ih h)
    · rcases List.mem_cons.1 h with rfl | h
      · exact List.mem_cons_self
      · exact List.mem_cons_of_mem y (ih h)

theorem isMember_of_sourceNameErrors {name : String} (h : sourceNameErrors model name true = []) :
    Naming.IsMember name := by
  obtain ⟨hvalid, hfree⟩ := isValid_of_sourceNameErrors h
  exact ⟨hvalid, (Bool.or_eq_false_iff.1 hfree).1⟩

/-- The name of a hook is looked at like that of a field. -/
theorem isMember_of_buildMember {member : MemberDeclaration} (h : (buildMember model member).errors = [])
    (hused : (member.isHook || member.field.isSome) = true) : Naming.IsMember member.name := by
  unfold buildMember at h
  rw [if_pos hused] at h
  split at h
  · exact isMember_of_sourceNameErrors h
  · exact isMember_of_sourceNameErrors (List.append_eq_nil_iff.1 h).1

/-- **The members that a model uses have such names**, and so have the fields that
are made of them, by induction on the members. -/
theorem isMember_of_buildMembers (h : (buildMembers model seen members).errors = []) :
    (∀ member ∈ members, (member.isHook || member.field.isSome) = true → Naming.IsMember member.name) ∧
      ∀ f ∈ (buildMembers model seen members).result, Naming.IsMember f.name := by
  induction members generalizing seen with
  | nil => exact ⟨List.forall_mem_nil _, List.forall_mem_nil _⟩
  | cons member members ih =>
    unfold buildMembers at h ⊢
    by_cases hs : seen.contains member.name = true
    · rw [if_pos hs] at h
      cases h
    · rw [if_neg hs] at h ⊢
      obtain ⟨hone, hrest⟩ := List.append_eq_nil_iff.1 h
      obtain ⟨hmembers, hfields⟩ := ih hrest
      have hmember := isMember_of_buildMember hone
      refine ⟨List.forall_mem_cons.2 ⟨hmember, hmembers⟩, fun f hf => ?_⟩
      rcases List.mem_append.1 hf with hf | hf
      · have hresult := Option.mem_toList.1 hf
        rw [(isSound_of_buildMember hone hresult).2]
        refine hmember (Bool.or_eq_true_iff.2 (.inr ?_))
        -- a member without attributes has no field
        by_contra hnone
        rw [buildMember, Option.not_isSome_iff_eq_none.1 hnone] at hresult
        cases hresult
      · exact hfields f hf

theorem isMember_of_mem_hooksOf (h : (buildMembers model seen members).errors = []) :
    ∀ hook ∈ hooksOf members, Naming.IsMember hook := by
  intro hook hhook
  obtain ⟨member, hmember, rfl⟩ := List.mem_map.1 hhook
  obtain ⟨hfirst, hhook⟩ := List.mem_filter.1 hmember
  exact (isMember_of_buildMembers h).1 member (mem_of_mem_firsts hfirst) (Bool.or_eq_true_iff.2 (.inl hhook))

/-- **The fields and the hooks of a model that is built** are called like members. -/
theorem isMember_of_buildModel {c : Context} {m : ModelDeclaration} {built : Model}
    (h : (buildModel c m).result = some built) :
    (∀ f ∈ built.fields, Naming.IsMember f.name) ∧ ∀ hook ∈ built.initHooks, Naming.IsMember hook := by
  unfold buildModel at h
  split at h
  · cases h
  · unfold buildFromLineage at h
    simp only at h
    split at h
    case h_2 => cases h
    case h_1 herrors _ _ =>
      obtain rfl := Option.some.inj h
      simp only [List.append_eq_nil_iff] at herrors
      obtain ⟨⟨⟨⟨⟨-, hfields⟩, -⟩, -⟩, -⟩, -⟩ := herrors
      exact ⟨(isMember_of_buildMembers hfields).2, isMember_of_mem_hooksOf hfields⟩

/-- A provider that is resolved is called like one that was declared. -/
theorem isValid_of_resolveProviders {ps : List ProviderDeclaration} (h : providerNameErrors [] ps = []) :
    ∀ p ∈ (resolveProviders (providerDirectory ps)).result, Identifier.isValid p.name = true := by
  intro p hp
  obtain ⟨declared, hdeclared, hresolved⟩ := List.mem_filterMap.1 hp
  have hnodup := (nodup_of_repeated (repeated_of_providerNameErrors h)).1
  obtain ⟨e, he, rfl⟩ := List.mem_map.1 hdeclared
  obtain ⟨q, hq, rfl⟩ := List.mem_map.1 ((perm_of_filed _ hnodup).mem_iff.1 he)
  rw [name_of_resolveProvider hresolved]
  exact isValid_of_providerNameErrors h q (List.mem_filter.1 hq).1

/-- Entries with different names are filed under their own. -/
theorem mem_filed {α : Type} {name : α → String} {xs : List α} (h : (xs.map name).Nodup) :
    ∀ e ∈ (Directory.ofList (xs.map fun x => (name x, x))).entries, e.2 ∈ xs ∧ e.1 = name e.2 := by
  have hpairs : ((xs.map fun x => (name x, x)).map Prod.fst).Nodup := by
    rw [List.map_map]
    exact h
  intro e he
  obtain ⟨x, hx, rfl⟩ := List.mem_map.1 ((Directory.entries_ofList_perm hpairs).mem_iff.1 he)
  exact ⟨hx, rfl⟩

/-- What is registered has valid names if all of it has one. -/
theorem isNamed_register {providers : List Provider} {models : List Model}
    (hproviders : (providers.map (·.name)).Nodup) (hmodels : (models.map (·.name)).Nodup)
    (hprovider : ∀ m ∈ models, m.provider ∈ providers)
    (hvalid : ∀ p ∈ providers, Identifier.isValid p.name = true)
    (hhooks : ∀ m ∈ models, ∀ hook ∈ m.initHooks, Identifier.isValid hook = true) :
    (register providers models).IsNamed := by
  have hfiled := mem_filed hproviders
  have hmodelsFiled := mem_filed hmodels
  rw [← providers_register hproviders hprovider] at hfiled
  rw [← models_register providers] at hmodelsFiled
  refine ⟨fun e he => (hfiled e he).2, fun p hp => ?_, fun m hm => ?_⟩
  · obtain ⟨e, he, rfl⟩ := List.mem_map.1 hp
    exact hvalid _ (hfiled e he).1
  · obtain ⟨e, he, rfl⟩ := List.mem_map.1 hm
    exact hhooks _ (hmodelsFiled e he).1

/-- What is found has valid names if nothing was found in it. -/
theorem isNamed_of_errors_eq_nil {d : Declarations} (h : (findings d).errors = []) :
    (register (findings d).result.1 (findings d).result.2).IsNamed := by
  simp only [findings, List.append_eq_nil_iff] at h
  obtain ⟨⟨⟨⟨⟨⟨⟨hproviders, hnames⟩, -⟩, -⟩, -⟩, -⟩, -⟩, -⟩ := h
  refine isNamed_register (nodup_resolveProviders hproviders) (nodup_buildModels hnames rfl)
    (fun m hm => (isSound_of_mem_buildModels hm).2) (isValid_of_resolveProviders hproviders) fun m hm => ?_
  obtain ⟨declared, -, hbuilt⟩ := List.mem_filterMap.1 hm
  exact fun hook hhook => ((isMember_of_buildModel hbuilt).2 hook hhook).isValid

/-- **A model of an extracted registry was built** from one that was declared. -/
theorem exists_buildModel_of_extract {d : Declarations} {r : Registry} (h : extract d = .ok r) {m : Model}
    (hm : m ∈ r.models.values) : ∃ c declared, (buildModel c declared).result = some m := by
  obtain ⟨hnone, rfl⟩ := errors_of_extract h
  simp only [findings, List.append_eq_nil_iff] at hnone
  obtain ⟨⟨⟨⟨⟨⟨⟨-, hnames⟩, -⟩, -⟩, -⟩, -⟩, -⟩, -⟩ := hnone
  rw [models_register] at hm
  obtain ⟨e, he, rfl⟩ := List.mem_map.1 hm
  have hbuilt := (mem_filed (nodup_buildModels hnames rfl) e he).1
  obtain ⟨declared, -, hresult⟩ := List.mem_filterMap.1 hbuilt
  exact ⟨_, declared, hresult⟩

end Extraction

/-- **Only registries in the order of valid names are extracted.** -/
theorem isNamed_of_extract {d : Declarations} {r : Registry} (h : extract d = .ok r) : r.IsNamed := by
  obtain ⟨hnone, rfl⟩ := Extraction.errors_of_extract h
  exact Extraction.isNamed_of_errors_eq_nil hnone

/-! ## Models of a provider -/

namespace Registry

variable {r : Registry} {provider : String}

theorem mem_modelsOf {m : Model} : m ∈ r.modelsOf provider ↔ m ∈ r.models.values ∧ m.provider.name = provider := by
  simp [modelsOf]

/-- **Models are listed in the order of their names**, each once. -/
theorem pairwise_modelsOf (hs : r.IsSound) (provider : String) :
    (r.modelsOf provider).Pairwise fun m n => compare m.name n.name = .lt := by
  refine List.Pairwise.filter _ (List.pairwise_map.2 ?_)
  refine r.models.isSorted.imp_of_mem fun {a b} ha hb hab => ?_
  rw [← (hs.model_isFiled a ha).1, ← (hs.model_isFiled b hb).1]
  exact hab

/-- Providers are listed once. -/
theorem nodup_providers (hn : r.IsNamed) : (r.providers.values.map (·.name)).Nodup :=
  hn.providers_areFiled.nodup_names_values

/-- The provider of a model is listed. -/
theorem exists_provider (hs : r.IsSound) {m : Model} (hm : m ∈ r.models.values) :
    ∃ p ∈ r.providers.values, p.name = m.provider.name := by
  have hentry := Directory.mem_of_find? (hs.provider_isRegistered m hm)
  exact ⟨m.provider, List.mem_map.2 ⟨_, hentry, rfl⟩, rfl⟩

end Registry

end TypedTables

import TypedTables.Extraction
import TypedTables.Proofs.Extraction.Model
import TypedTables.Proofs.Registry.Directory
/-!
# TypedTables — registries that are extracted

What extraction lets through. Its checks are made on declarations, on fields,
on models one by one and on all models together; a registry comes out only if
none of them found anything, and then it is sound as a whole.
-/

namespace TypedTables

/-- **A registry that everything else can rely on.** -/
structure Registry.IsSound (r : Registry) : Prop where
  /-- Every model is filed under its own name, and found there. -/
  model_isFiled : ∀ e ∈ r.models.entries, e.1 = e.2.name ∧ r.model? e.1 = some e.2
  models_areSound : ∀ m ∈ r.models.values, m.IsSound
  /-- The provider that a model has is the one that is registered. -/
  provider_isRegistered : ∀ m ∈ r.models.values, r.provider? m.provider.name = some m.provider
  /-- Every model is found by its table. -/
  table_isOwn : ∀ m ∈ r.models.values, r.modelForTable? m.provider.name m.tableName = some m
  /-- Foreign keys point to columns of tables of the same provider. -/
  target_isThere : ∀ m ∈ r.models.values, ∀ fk ∈ m.foreignKeys,
    ∃ target ∈ r.models.values, target.provider = m.provider ∧ target.tableName = fk.targetTable ∧
      fk.targetColumn ∈ target.columns
  /-- Models of one provider have modules of their own. -/
  modules_nodup :
    (r.models.values.map fun m => (m.provider.name, Naming.moduleName m.name)).Nodup
  /-- Providers of models have files of their own. -/
  file_isOwn : ∀ m ∈ r.models.values, ∀ n ∈ r.models.values,
    Naming.fileName m.provider.name = Naming.fileName n.provider.name →
    m.provider.name = n.provider.name

namespace Extraction

/-! ## Names of declarations -/

theorem repeated_of_modelNameErrors {seen : List String} {ms : List ModelDeclaration}
    (h : modelNameErrors seen ms = []) : repeated (·.name) seen ms = [] := by
  induction ms generalizing seen with
  | nil => rfl
  | cons m ms ih =>
    unfold modelNameErrors at h
    split at h
    · nomatch h
    split at h
    · nomatch h
    case isFalse hs =>
      rw [repeated, if_neg hs]
      exact ih h

/-- A declared model has a name. -/
theorem isNamed_of_modelNameErrors {seen : List String} {ms : List ModelDeclaration}
    (h : modelNameErrors seen ms = []) : ∀ m ∈ ms, Text.allBlank m.name = false := by
  induction ms generalizing seen with
  | nil => exact nofun
  | cons m ms ih =>
    unfold modelNameErrors at h
    split at h
    · nomatch h
    case isFalse hb =>
      split at h
      · nomatch h
      · intro n hn
        rcases List.mem_cons.1 hn with rfl | hn
        · simpa using hb
        · exact ih h n hn

theorem repeated_of_providerNameErrors {seen : List String} {ps : List ProviderDeclaration}
    (h : providerNameErrors seen ps = []) : repeated (·.name) seen ps = [] := by
  induction ps generalizing seen with
  | nil => rfl
  | cons p ps ih =>
    unfold providerNameErrors at h
    split at h
    · nomatch h
    split at h
    · nomatch h
    case isFalse hs =>
      rw [repeated, if_neg hs]
      exact ih (List.append_eq_nil_iff.1 h).2

/-- Declarations of different names are filed as they are. -/
theorem perm_of_filed {α : Type} (keep : α → Bool) {name : α → String} {ds : List α}
    (h : (ds.map name).Nodup) :
    (Directory.ofList ((ds.filter keep).map fun d => (name d, d))).entries.Perm
      ((ds.filter keep).map fun d => (name d, d)) := by
  refine Directory.entries_ofList_perm ?_
  rw [List.map_map]
  exact h.sublist (List.filter_sublist.map name)

/-- What is found under a name is a declaration of that name. -/
theorem mem_of_find?_filed {α : Type} {keep : α → Bool} {name : α → String} {ds : List α}
    (h : (ds.map name).Nodup) {n : String} {x : α}
    (hx : (Directory.ofList ((ds.filter keep).map fun d => (name d, d))).find? n = some x) :
    x ∈ ds ∧ name x = n := by
  obtain ⟨y, hy, hpair⟩ := List.mem_map.1 ((perm_of_filed keep h).mem_iff.1 (Directory.mem_of_find? hx))
  have hname : name y = n := congrArg Prod.fst hpair
  obtain rfl : y = x := congrArg Prod.snd hpair
  exact ⟨(List.mem_filter.1 hy).1, hname⟩

/-- The names of what is filed under its own name differ if they did in the
declarations. -/
theorem nodup_names_values {α : Type} {keep : α → Bool} {name : α → String} {ds : List α}
    (h : (ds.map name).Nodup) :
    ((Directory.ofList ((ds.filter keep).map fun d => (name d, d))).values.map name).Nodup := by
  have hperm := ((perm_of_filed keep h).map Prod.snd).map name
  refine hperm.nodup_iff.2 ?_
  rw [List.map_map, List.map_map]
  exact h.sublist (List.filter_sublist.map name)

/-- Results that are called like what they come from are called differently. -/
theorem nodup_names_filterMap {α β : Type} {f : α → Option β} {name : α → String} {name' : β → String}
    {xs : List α} (h : (xs.map name).Nodup) (hf : ∀ x y, f x = some y → name' y = name x) :
    ((xs.filterMap f).map name').Nodup := by
  refine h.sublist ?_
  clear h
  induction xs with
  | nil => exact .refl _
  | cons x xs ih =>
    rcases hx : f x with _ | y
    · rw [List.filterMap_cons_none hx]
      exact ih.cons _
    · rw [List.filterMap_cons_some hx, List.map_cons, List.map_cons, hf x y hx]
      exact ih.cons_cons _

/-! ## What is built -/

/-- A provider that is resolved was bound with its ancestry. -/
theorem exists_bindProvider_of_resolveProvider {declared : Directory ProviderDeclaration}
    {d : ProviderDeclaration} {p : Provider}
    (h : (Findings.ofExcept (resolveProvider declared d)).result = some p) :
    ∃ chain, bindProvider d.name chain = .ok p := by
  rcases hr : resolveProvider declared d with _ | q
  · rw [hr] at h
    nomatch h
  · rw [hr] at h
    obtain rfl := Option.some.inj h
    unfold resolveProvider at hr
    split at hr
    · nomatch hr
    · nomatch hr
    case h_3 chain _ => exact ⟨chain, hr⟩

/-- A resolved provider is called like its declaration. -/
theorem name_of_resolveProvider {declared : Directory ProviderDeclaration} {d : ProviderDeclaration}
    {p : Provider} (h : (Findings.ofExcept (resolveProvider declared d)).result = some p) :
    p.name = d.name := by
  obtain ⟨chain, hchain⟩ := exists_bindProvider_of_resolveProvider h
  unfold bindProvider at hchain
  split at hchain
  · split at hchain
    · nomatch hchain
    · obtain rfl := Except.ok.inj hchain
      rfl
  · obtain rfl := Except.ok.inj hchain
    rfl

theorem isSound_of_buildModel {c : Context} {m : ModelDeclaration} {built : Model}
    (h : (buildModel c m).result = some built) :
    built.IsSound ∧ built.name = m.name ∧ built.provider ∈ c.providers := by
  unfold buildModel at h
  split at h
  · nomatch h
  · exact isSound_of_buildFromLineage h

theorem nodup_resolveProviders {ps : List ProviderDeclaration} (h : providerNameErrors [] ps = []) :
    ((resolveProviders (providerDirectory ps)).result.map (·.name)).Nodup := by
  have hdeclared := nodup_of_repeated (repeated_of_providerNameErrors h)
  have hvalues : ((providerDirectory ps).values.map (·.name)).Nodup := nodup_names_values hdeclared.1
  exact nodup_names_filterMap hvalues fun _ _ => name_of_resolveProvider

theorem nodup_buildModels {ms : List ModelDeclaration} {c : Context} (h : modelNameErrors [] ms = [])
    (hc : c.declaredModels = modelDirectory ms) : ((buildModels c).result.map (·.name)).Nodup := by
  have hdeclared := nodup_of_repeated (repeated_of_modelNameErrors h)
  have hvalues : (c.declaredModels.values.map (·.name)).Nodup := hc ▸ nodup_names_values hdeclared.1
  refine nodup_names_filterMap (hvalues.sublist (List.filter_sublist.map _)) fun _ _ hbuilt => ?_
  exact (isSound_of_buildModel hbuilt).2.1

/-- **Every model that is built is sound** and bound to a resolved provider. -/
theorem isSound_of_mem_buildModels {c : Context} {m : Model} (h : m ∈ (buildModels c).result) :
    m.IsSound ∧ m.provider ∈ c.providers := by
  obtain ⟨declared, -, hbuilt⟩ := List.mem_filterMap.1 h
  have hsound := isSound_of_buildModel hbuilt
  exact ⟨hsound.1, hsound.2.2⟩

/-! ## What is registered -/

theorem models_register (providers : List Provider) (models : List Model) :
    (register providers models).models = .ofList (models.map fun m => (m.name, m)) := by
  have hproviders : ∀ (r : Registry), (providers.foldl Registry.insertProvider r).models = r.models := by
    induction providers with
    | nil => exact fun r => rfl
    | cons p ps ih => exact fun r => ih (r.insertProvider p)
  have hmodels : ∀ (r : Registry), (models.foldl Registry.insertModel r).models =
      (models.map fun m => (m.name, m)).foldl (fun d e => d.insert e.1 e.2) r.models := by
    induction models with
    | nil => exact fun r => rfl
    | cons m ms ih => exact fun r => ih (r.insertModel m)
  rw [register, hmodels, hproviders]
  rfl

/-- Entries that are called differently are found under their names. -/
theorem find?_ofList {α : Type} {name : α → String} {xs : List α} (h : (xs.map name).Nodup) {x : α}
    (hx : x ∈ xs) : (Directory.ofList (xs.map fun x => (name x, x))).find? (name x) = some x := by
  have hpairs : ((xs.map fun x => (name x, x)).map Prod.fst).Nodup := by
    rw [List.map_map]
    exact h
  have hperm := Directory.entries_ofList_perm hpairs
  refine Directory.find?_of_mem ((hperm.map Prod.fst).nodup_iff.2 hpairs) ?_
  exact hperm.mem_iff.2 (List.mem_map.2 ⟨x, hx, rfl⟩)

/-- Models do not bring new providers with them. -/
theorem providers_register {providers : List Provider} {models : List Model}
    (hnodup : (providers.map (·.name)).Nodup) (h : ∀ m ∈ models, m.provider ∈ providers) :
    (register providers models).providers = .ofList (providers.map fun p => (p.name, p)) := by
  have hproviders : ∀ (r : Registry), (providers.foldl Registry.insertProvider r).providers =
      (providers.map fun p => (p.name, p)).foldl (fun d e => d.insert e.1 e.2) r.providers := by
    clear hnodup h
    induction providers with
    | nil => exact fun r => rfl
    | cons p ps ih => exact fun r => ih (r.insertProvider p)
  have hkeep : ∀ (r : Registry), (∀ m ∈ models, r.providers.contains m.provider.name = true) →
      (models.foldl Registry.insertModel r).providers = r.providers := by
    clear h
    induction models with
    | nil => exact fun r _ => rfl
    | cons m ms ih =>
      intro r hr
      have hm : (r.insertModel m).providers = r.providers := if_pos (hr m List.mem_cons_self)
      rw [List.foldl_cons, ih _ fun n hn => ?_, hm]
      rw [hm]
      exact hr n (List.mem_cons_of_mem m hn)
  have hstart : (providers.foldl Registry.insertProvider .empty).providers =
      .ofList (providers.map fun p => (p.name, p)) := hproviders .empty
  rw [register, hkeep _ fun m hm => ?_, hstart]
  rw [hstart, Directory.contains, find?_ofList hnodup (h m hm)]
  rfl

/-- What is registered is found under its name. -/
theorem model?_register {providers : List Provider} {models : List Model}
    (h : (models.map (·.name)).Nodup) {m : Model} (hm : m ∈ models) :
    (register providers models).model? m.name = some m := by
  rw [Registry.model?, models_register]
  exact find?_ofList h hm

theorem provider?_register {providers : List Provider} {models : List Model}
    (hnodup : (providers.map (·.name)).Nodup) (h : ∀ m ∈ models, m.provider ∈ providers) {m : Model}
    (hm : m ∈ models) : (register providers models).provider? m.provider.name = some m.provider := by
  rw [Registry.provider?, providers_register hnodup h]
  exact find?_ofList hnodup (h m hm)

/-- The models are filed in another order, under their names. -/
theorem entries_register_perm {models : List Model} (h : (models.map (·.name)).Nodup)
    (providers : List Provider) :
    (register providers models).models.entries.Perm (models.map fun m => (m.name, m)) := by
  rw [models_register]
  refine Directory.entries_ofList_perm ?_
  rw [List.map_map]
  exact h

theorem values_register_perm {models : List Model} (h : (models.map (·.name)).Nodup)
    (providers : List Provider) : (register providers models).models.values.Perm models := by
  have hmap := (entries_register_perm h providers).map Prod.snd
  have hsnd : (models.map fun m => (m.name, m)).map Prod.snd = models := by
    rw [List.map_map]
    exact List.map_id models
  rwa [hsnd] at hmap

/-- A member is found by a key that no other member has. -/
theorem find?_of_nodup {α κ : Type} [BEq κ] [LawfulBEq κ] {key : α → κ} {xs : List α}
    (h : (xs.map key).Nodup) {x : α} (hx : x ∈ xs) : xs.find? (fun y => key y == key x) = some x := by
  induction xs with
  | nil => nomatch hx
  | cons y ys ih =>
    rw [List.map_cons, List.nodup_cons] at h
    rcases List.mem_cons.1 hx with rfl | hx
    · exact List.find?_cons_of_pos (beq_self_eq_true _)
    · have hne : (key y == key x) = false := by
        refine beq_eq_false_iff_ne.2 fun he => h.1 ?_
        rw [he]
        exact List.mem_map_of_mem hx
      rw [List.find?_cons_of_neg (by simp [hne])]
      exact ih h.2 hx

/-! ## What is checked of all models together -/

theorem exists_target_of_targetErrors {models : List Model} {m : Model} {fk : ForeignKey}
    (h : targetErrors models m fk = []) :
    ∃ target ∈ models, target.provider.name = m.provider.name ∧ target.tableName = fk.targetTable ∧
      fk.targetColumn ∈ target.columns := by
  unfold targetErrors at h
  split at h
  · nomatch h
  case h_2 target ht =>
    have hmem := List.mem_of_find?_eq_some ht
    have hkey := List.find?_some ht
    simp only [Bool.and_eq_true, beq_iff_eq] at hkey
    rw [errorUnless_eq_nil, Model.fieldByColumn?, List.find?_isSome] at h
    obtain ⟨f, hf, hc⟩ := h
    refine ⟨target, hmem, hkey.1, hkey.2, List.mem_map.2 ⟨f, hf, ?_⟩⟩
    simpa using hc

/-- Files are different where their providers are. -/
theorem provider_eq_of_fileErrors {models : List Model} (h : fileErrors models = []) {m n : Model}
    (hm : m ∈ models) (hn : n ∈ models)
    (he : Naming.fileName m.provider.name = Naming.fileName n.provider.name) :
    m.provider.name = n.provider.name := by
  have hused : ∀ x ∈ models, x.provider.name ∈ usedProviders models := by
    intro x hx
    refine Directory.mem_names_ofList ?_
    rw [List.map_map]
    exact List.mem_map.2 ⟨x, hx, rfl⟩
  have hnodup := (nodup_of_collisions (List.map_eq_nil_iff.1 h)).1
  have hsnake : Naming.snakeCase m.provider.name = Naming.snakeCase n.provider.name := by
    have hlist := congrArg String.toList he
    rw [Naming.fileName, Naming.fileName, String.toList_append, String.toList_append] at hlist
    exact String.toList_inj.1 (List.append_cancel_right hlist)
  exact List.inj_on_of_nodup_map hnodup (hused m hm) (hused n hn) hsnake

/-- **What passed the checks makes a sound registry.** The models are filed in
another order, and what was checked of them together does not depend on it. -/
theorem isSound_register {providers : List Provider} {models : List Model}
    (hproviders : (providers.map (·.name)).Nodup) (hnames : (models.map (·.name)).Nodup)
    (hmodels : ∀ m ∈ models, m.IsSound ∧ m.provider ∈ providers) (htables : tableErrors models = [])
    (htargets : allTargetErrors models = []) (hfiles : fileErrors models = [])
    (hmodules : moduleErrors models = []) : (register providers models).IsSound := by
  have hvalues := values_register_perm hnames providers
  have hregistered := fun (m : Model) (hm : m ∈ models) =>
    provider?_register hproviders (fun m hm => (hmodels m hm).2) hm
  have hkeys : (models.map fun m => (m.provider.name, m.tableName)).Nodup :=
    (nodup_of_repeated (List.map_eq_nil_iff.1 htables)).1
  constructor
  · rintro ⟨name, m⟩ he
    obtain ⟨n, hn, hpair⟩ := List.mem_map.1 ((entries_register_perm hnames providers).mem_iff.1 he)
    obtain ⟨rfl, rfl⟩ := Prod.mk.inj hpair
    exact ⟨rfl, model?_register hnames hn⟩
  · exact fun m hm => (hmodels m (hvalues.mem_iff.1 hm)).1
  · exact fun m hm => hregistered m (hvalues.mem_iff.1 hm)
  · intro m hm
    have hnodup := ((hvalues.map fun m => (m.provider.name, m.tableName)).nodup_iff).2 hkeys
    exact find?_of_nodup hnodup hm
  · intro m hm fk hfk
    have hm' := hvalues.mem_iff.1 hm
    have hnone := List.flatMap_eq_nil_iff.1 (List.flatMap_eq_nil_iff.1 htargets m hm') fk hfk
    obtain ⟨target, ht, hname, htable, hcolumn⟩ := exists_target_of_targetErrors hnone
    -- the provider of the target is registered under the same name, so it is the same
    have hsame : target.provider = m.provider := by
      have hp := hregistered target ht
      rw [hname, hregistered m hm'] at hp
      exact (Option.some.inj hp).symm
    exact ⟨target, hvalues.mem_iff.2 ht, hsame, htable, hcolumn⟩
  · have hnodup := (nodup_of_collisions (List.map_eq_nil_iff.1 hmodules)).1
    exact ((hvalues.map _).nodup_iff).2 hnodup
  · exact fun m hm n hn =>
      provider_eq_of_fileErrors hfiles (hvalues.mem_iff.1 hm) (hvalues.mem_iff.1 hn)

/-- What is registered is sound if nothing was found. -/
theorem isSound_of_errors_eq_nil {d : Declarations} (h : (findings d).errors = []) :
    (register (findings d).result.1 (findings d).result.2).IsSound := by
  simp only [findings, List.append_eq_nil_iff] at h
  obtain ⟨⟨⟨⟨⟨⟨⟨hproviders, hnames⟩, -⟩, -⟩, htables⟩, htargets⟩, hfiles⟩, hmodules⟩ := h
  exact isSound_register (nodup_resolveProviders hproviders) (nodup_buildModels hnames rfl)
    (fun m hm => isSound_of_mem_buildModels hm) htables htargets hfiles hmodules

/-- What is extracted was registered, and nothing was found. -/
theorem errors_of_extract {d : Declarations} {r : Registry} (h : extract d = .ok r) :
    (findings d).errors = [] ∧ r = register (findings d).result.1 (findings d).result.2 := by
  unfold extract at h
  simp only at h
  split at h
  case h_2 => cases h
  case h_1 hnone => exact ⟨hnone, (Except.ok.inj h).symm⟩

end Extraction

open Extraction in
/-- **Only sound registries are extracted.** -/
theorem isSound_of_extract {d : Declarations} {r : Registry} (h : extract d = .ok r) : r.IsSound := by
  obtain ⟨hnone, rfl⟩ := errors_of_extract h
  exact isSound_of_errors_eq_nil hnone

/-! ## Nothing is left out -/

namespace Extraction

/-- If nothing was found in the providers, each of them is resolved. -/
theorem exists_of_resolveProviders {declared : Directory ProviderDeclaration}
    (h : (resolveProviders declared).errors = []) {d : ProviderDeclaration} (hd : d ∈ declared.values) :
    ∃ p, (Findings.ofExcept (resolveProvider declared d)).result = some p ∧ p.name = d.name := by
  have hone := List.flatMap_eq_nil_iff.1 h d hd
  rcases hr : resolveProvider declared d with e | p
  · simp only [hr] at hone
    nomatch hone
  · exact ⟨p, rfl, name_of_resolveProvider (by rw [hr]; rfl)⟩

theorem exists_of_findProvider {c : Context} {model : String} {name : Option String}
    (hc : ∀ name, c.declaredProviders.contains name = true → (c.provider? name).isSome = true)
    (h : (findProvider c model name).errors = []) :
    ∃ p, (findProvider c model name).result = some p := by
  unfold findProvider at h ⊢
  rcases name with _ | name
  · cases h
  · rcases hp : c.provider? name with _ | p
    · simp only [hp, errorUnless_eq_nil] at h
      have hsome := hc name h
      rw [hp] at hsome
      cases hsome
    · exact ⟨p, by simp only [hp]; rfl⟩

/-- **A declaration without errors is built from its lineage**, if its provider is
found. The check of the package has found one. -/
theorem exists_of_buildFromLineage {c : Context} {m : ModelDeclaration} {chain : List ModelDeclaration} {p : Provider}
    (hprovider : (findProvider c m.name (chain.findSome? (·.provider))).result = some p)
    (h : (buildFromLineage c m chain).errors = []) : ∃ built, (buildFromLineage c m chain).result = some built := by
  have herrors := h
  unfold buildFromLineage at herrors
  simp only [List.append_eq_nil_iff] at herrors
  obtain ⟨⟨⟨⟨⟨⟨⟨⟨-, hpackage⟩, -⟩, -⟩, -⟩, -⟩, -⟩, -⟩, -⟩ := herrors
  obtain ⟨path, hpath⟩ : ∃ path, chain.findSome? (·.packagePath) = some path := by
    refine Option.ne_none_iff_exists'.1 fun hp => ?_
    rw [hp] at hpackage
    nomatch hpackage
  unfold buildFromLineage at h ⊢
  simp only at h ⊢
  rw [h, hprovider, hpath]
  exact ⟨_, rfl⟩

/-- A model in which nothing was found is built, once its provider can only be
missing if it was not declared. -/
theorem exists_of_buildModel {c : Context} {m : ModelDeclaration}
    (hc : ∀ name, c.declaredProviders.contains name = true → (c.provider? name).isSome = true)
    (h : (buildModel c m).errors = []) : ∃ built, (buildModel c m).result = some built := by
  unfold buildModel at h ⊢
  rcases hchain : lineage c.declaredModels m with e | chain
  · simp only [hchain] at h
    nomatch h
  · simp only [hchain] at h ⊢
    have herrors := h
    unfold buildFromLineage at herrors
    simp only [List.append_eq_nil_iff] at herrors
    obtain ⟨⟨⟨⟨⟨⟨⟨-, hprovider⟩, -⟩, -⟩, -⟩, -⟩, -⟩, -⟩ := herrors
    obtain ⟨p, hp⟩ := exists_of_findProvider hc hprovider
    exact exists_of_buildFromLineage hp h

end Extraction

/-- If nothing was found, what was found is registered. -/
theorem extract_of_errors_eq_nil {d : Declarations} (h : (Extraction.findings d).errors = []) :
    extract d =
      .ok (Extraction.register (Extraction.findings d).result.1 (Extraction.findings d).result.2) := by
  unfold extract
  simp only [h]

/-- Books and their authors. Both take their key over from a base. -/
def libraryDeclarations : Declarations where
  providers := [⟨"library", ProviderKind.localRoot, none, none⟩]
  models :=
    [{ name := "Base", packagePath := some "crate::library", provider := some "library",
        isAbstract := true,
        members := [⟨"id", some "i64", some { isPrimaryKey := true, isAutoIncrement := true }, false⟩] },
      { name := "Book", table := some "books", parent := some "Base",
        foreignKeys := [⟨"author_id", "authors", "id"⟩], uniqueGroups := [["title", "author_id"]],
        members :=
          [⟨"title", some "String", some { isNotNull := true, defaultValue := some (.text "") }, false⟩,
            ⟨"author", some "Option<i64>", some { column := some "author_id" }, false⟩] },
      { name := "Author", table := some "authors", parent := some "Base",
        members := [⟨"rating", some "Option<f64>", some { defaultValue := some (.integer 1) }, false⟩] }]

theorem isSound_of_extract_library :
    ∃ r, extract libraryDeclarations = .ok r ∧ r.models.names = ["Author", "Book"] ∧ r.IsSound := by
  have hok := extract_of_errors_eq_nil
    (show (Extraction.findings libraryDeclarations).errors = [] by decide +kernel)
  exact ⟨_, hok, by decide +kernel, isSound_of_extract hok⟩

end TypedTables

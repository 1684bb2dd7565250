import Mathlib.Data.List.Induction
import TypedTables.Proofs.Source.Files
import TypedTables.Sample
/-!
# TypedTables — registries that are filled step by step

Providers and models are registered one after the other, in any order and
again and again. A model brings its provider with it, but never in place of
one that is there; a model may be registered anew for another provider, and a
provider anew below its models. Whatever the steps, every model is of exactly
one registered provider, so it is generated in exactly one file.
-/

namespace TypedTables

/-- A step in filling a registry. -/
inductive Registry.Insertion
  | provider (p : Provider)
  | model (m : Model)
deriving Repr, DecidableEq

namespace Registry.Insertion

def provider? : Insertion → Option Provider
  | .provider p => some p
  | .model _ => none

def model? : Insertion → Option Model
  | .provider _ => none
  | .model m => some m

/-- The providers that are registered by some steps, as such. -/
def givenProviders (steps : List Insertion) : List Provider := steps.filterMap provider?

/-- The models that are registered by some steps. -/
def givenModels (steps : List Insertion) : List Model := steps.filterMap model?

end Registry.Insertion

namespace Registry

open Insertion (givenProviders givenModels)

variable {r : Registry} {p : Provider} {m : Model} {steps : List Insertion} {name : String}

def perform (r : Registry) : Insertion → Registry
  | .provider p => r.insertProvider p
  | .model m => r.insertModel m

/-- What is registered after some steps from nothing. -/
def run (steps : List Insertion) : Registry := steps.foldl perform .empty

theorem run_concat (steps : List Insertion) (step : Insertion) :
    run (steps ++ [step]) = (run steps).perform step := by
  rw [run, List.foldl_concat, run]

/-! ## What the steps keep -/

/-- **A consistent registry**: everything is filed under its own name, and the
provider of every model is there. -/
structure IsConsistent (r : Registry) : Prop where
  models_areFiled : r.models.IsFiledBy (·.name)
  providers_areFiled : r.providers.IsFiledBy (·.name)
  provider_isRegistered : ∀ m ∈ r.models.values, (r.provider? m.provider.name).isSome = true

theorem isConsistent_empty : empty.IsConsistent :=
  ⟨Directory.isFiledBy_empty, Directory.isFiledBy_empty, List.forall_mem_nil _⟩

theorem provider?_insertProvider (r : Registry) (p : Provider) (name : String) :
    (r.insertProvider p).provider? name = if name = p.name then some p else r.provider? name :=
  Directory.find?_insert r.providers p.name name p

theorem model?_insertModel (r : Registry) (m : Model) (name : String) :
    (r.insertModel m).model? name = if name = m.name then some m else r.model? name :=
  Directory.find?_insert r.models m.name name m

/-- The provider of a model is registered unless one of its name is there. -/
theorem provider?_insertModel (r : Registry) (m : Model) (name : String) : (r.insertModel m).provider? name =
    if name = m.provider.name then some ((r.provider? name).getD m.provider) else r.provider? name := by
  unfold insertModel provider? Directory.contains
  rcases hfound : r.providers.find? m.provider.name with _ | q
  · simp only [Option.isSome_none, Bool.false_eq_true, if_false, Directory.find?_insert]
    split
    case isTrue hname => rw [hname, hfound, Option.getD_none]
    case isFalse => rfl
  · simp only [Option.isSome_some, if_true]
    split
    case isTrue hname => rw [hname, hfound, Option.getD_some]
    case isFalse => rfl

/-- Nothing but the new model comes in. -/
theorem mem_values_insertModel {n : Model} (hn : n ∈ (r.insertModel m).models.values) :
    n = m ∨ n ∈ r.models.values := by
  obtain ⟨e, he, rfl⟩ := List.mem_map.1 hn
  rcases Directory.mem_insertEntry he with rfl | he
  · exact .inl rfl
  · exact .inr (List.mem_map.2 ⟨e, he, rfl⟩)

/-- **A step keeps a registry consistent.** -/
theorem IsConsistent.perform (h : r.IsConsistent) (step : Insertion) : (r.perform step).IsConsistent := by
  cases step with
  | provider p =>
    refine ⟨h.models_areFiled, h.providers_areFiled.insert p, fun m hm => ?_⟩
    rw [Registry.perform, provider?_insertProvider]
    split
    · rfl
    · exact h.provider_isRegistered m hm
  | model m =>
    refine ⟨h.models_areFiled.insert m, ?_, fun n hn => ?_⟩
    · rw [Registry.perform, insertModel]
      split
      · exact h.providers_areFiled
      · exact h.providers_areFiled.insert m.provider
    · rw [Registry.perform, provider?_insertModel]
      split
      · rfl
      case isFalse hne =>
        -- the new model is of the provider that was just looked at
        rcases mem_values_insertModel hn with rfl | hn
        · exact absurd rfl hne
        · exact h.provider_isRegistered n hn

theorem isConsistent_run (steps : List Insertion) : (run steps).IsConsistent := by
  induction steps using List.reverseRecOn with
  | nil => exact isConsistent_empty
  | append_singleton steps step ih =>
    rw [run_concat]
    exact ih.perform step

/-! ## What the steps leave -/

/-- **What is registered after some steps**: of the models of one name the last,
and of the providers the last that was registered as such, or else that of the
first model. -/
structure IsOf (steps : List Insertion) (r : Registry) : Prop where
  model?_eq : ∀ name, r.model? name = (givenModels steps).reverse.find? (·.name == name)
  provider?_eq : ∀ name, r.provider? name = ((givenProviders steps).reverse.find? (·.name == name)).or
    (((givenModels steps).map (·.provider)).find? (·.name == name))

theorem isOf_empty : IsOf [] .empty := ⟨fun _ => rfl, fun _ => rfl⟩

theorem IsOf.insertProvider (h : IsOf steps r) (p : Provider) :
    IsOf (steps ++ [.provider p]) (r.insertProvider p) := by
  have hproviders : givenProviders (steps ++ [.provider p]) = givenProviders steps ++ [p] := List.filterMap_append
  have hmodels : givenModels (steps ++ [.provider p]) = givenModels steps := by
    rw [givenModels, List.filterMap_append]
    exact List.append_nil _
  refine ⟨fun name => ?_, fun name => ?_⟩
  · rw [hmodels]
    exact h.model?_eq name
  · rw [hproviders, hmodels, List.reverse_concat, List.find?_cons, provider?_insertProvider]
    by_cases hname : name = p.name
    · rw [if_pos hname, hname, beq_self_eq_true]
      rfl
    · rw [if_neg hname, beq_eq_false_iff_ne.2 (Ne.symm hname)]
      exact h.provider?_eq name

theorem IsOf.insertModel (h : IsOf steps r) (m : Model) : IsOf (steps ++ [.model m]) (r.insertModel m) := by
  have hmodels : givenModels (steps ++ [.model m]) = givenModels steps ++ [m] := List.filterMap_append
  have hproviders : givenProviders (steps ++ [.model m]) = givenProviders steps := by
    rw [givenProviders, List.filterMap_append]
    exact List.append_nil _
  refine ⟨fun name => ?_, fun name => ?_⟩
  · rw [hmodels, List.reverse_concat, List.find?_cons, model?_insertModel]
    by_cases hname : name = m.name
    · rw [if_pos hname, hname, beq_self_eq_true]
    · rw [if_neg hname, beq_eq_false_iff_ne.2 (Ne.symm hname)]
      exact h.model?_eq name
  · have hnew : ([m].map (·.provider)).find? (·.name == name) =
        if name = m.provider.name then some m.provider else none := by
      by_cases hname : name = m.provider.name
      · simp [hname]
      · simp [hname, Ne.symm hname]
    -- the provider of the new model comes last, behind all that were there
    rw [hmodels, hproviders, List.map_append, List.find?_append, ← Option.or_assoc, ← h.provider?_eq name, hnew,
      provider?_insertModel]
    split
    · rcases r.provider? name with _ | q <;> rfl
    · rw [Option.or_none]

theorem IsOf.perform (h : IsOf steps r) (step : Insertion) : IsOf (steps ++ [step]) (r.perform step) := by
  cases step with
  | provider p => exact h.insertProvider p
  | model m => exact h.insertModel m

theorem isOf_run (steps : List Insertion) : IsOf steps (run steps) := by
  induction steps using List.reverseRecOn with
  | nil => exact isOf_empty
  | append_singleton steps step ih =>
    rw [run_concat]
    exact ih.perform step

/-! ## What a step answers -/

/-- **Registering a provider** answers the one of its name, takes its place and
leaves everything else. -/
structure ExchangesProvider (r : Registry) (p : Provider) : Prop where
  exchange_eq : r.exchangeProvider p = (r.provider? p.name, r.insertProvider p)
  provider?_eq : (r.insertProvider p).provider? p.name = some p
  provider?_others : ∀ name ≠ p.name, (r.insertProvider p).provider? name = r.provider? name
  models_eq : (r.insertProvider p).models = r.models

/-- **Registering a model** answers the one of its name, takes its place and
leaves all other models and all providers that are there. -/
structure ExchangesModel (r : Registry) (m : Model) : Prop where
  exchange_eq : r.exchangeModel m = (r.model? m.name, r.insertModel m)
  model?_eq : (r.insertModel m).model? m.name = some m
  model?_others : ∀ name ≠ m.name, (r.insertModel m).model? name = r.model? name
  provider?_eq : (r.insertModel m).provider? m.provider.name =
    some ((r.provider? m.provider.name).getD m.provider)
  provider?_others : ∀ name ≠ m.provider.name, (r.insertModel m).provider? name = r.provider? name

theorem exchangesProvider (r : Registry) (p : Provider) : r.ExchangesProvider p where
  exchange_eq := by
    rw [exchangeProvider, Directory.exchange_eq]
    rfl
  provider?_eq := by rw [provider?_insertProvider, if_pos rfl]
  provider?_others := fun name hname => by rw [provider?_insertProvider, if_neg hname]
  models_eq := rfl

theorem exchangesModel (r : Registry) (m : Model) : r.ExchangesModel m where
  exchange_eq := by
    rw [exchangeModel, Directory.exchange_eq]
    rfl
  model?_eq := by rw [model?_insertModel, if_pos rfl]
  model?_others := fun name hname => by rw [model?_insertModel, if_neg hname]
  provider?_eq := by rw [provider?_insertModel, if_pos rfl]
  provider?_others := fun name hname => by rw [provider?_insertModel, if_neg hname]

/-! ## The models of the providers -/

/-- **Every model is of one provider**: the lists of models of the providers have
no model in common, and together they are all models. -/
structure IsPartitioned (r : Registry) : Prop where
  models_nodup : r.models.values.Nodup
  models_disjoint : r.providers.values.Pairwise fun p q => (r.modelsOf p.name).Disjoint (r.modelsOf q.name)
  models_perm : (r.providers.values.flatMap fun p => r.modelsOf p.name).Perm r.models.values

theorem IsConsistent.exists_provider (h : r.IsConsistent) (hm : m ∈ r.models.values) :
    ∃ p ∈ r.providers.values, p.name = m.provider.name := by
  obtain ⟨p, hp⟩ := Option.isSome_iff_exists.1 (h.provider_isRegistered m hm)
  exact ⟨p, h.providers_areFiled.find?_eq_some_iff.1 hp⟩

theorem IsConsistent.isPartitioned (h : r.IsConsistent) : r.IsPartitioned := by
  have hmodels : r.models.values.Nodup := h.models_areFiled.nodup_names_values.of_map
  have hdisjoint : r.providers.values.Pairwise fun p q => (r.modelsOf p.name).Disjoint (r.modelsOf q.name) := by
    refine (List.pairwise_map.1 h.providers_areFiled.nodup_names_values).imp fun {p q} hne m hp hq => hne ?_
    rw [← (mem_modelsOf.1 hp).2, ← (mem_modelsOf.1 hq).2]
  refine ⟨hmodels, hdisjoint, ?_⟩
  -- neither side has a model twice, so it is enough that they have the same models
  have hlisted : (r.providers.values.flatMap fun p => r.modelsOf p.name).Nodup :=
    List.nodup_flatMap.2 ⟨fun p _ => hmodels.filter _, hdisjoint⟩
  refine (List.perm_ext_iff_of_nodup hlisted hmodels).2 fun m => ?_
  rw [List.mem_flatMap]
  constructor
  · rintro ⟨p, -, hm⟩
    exact (mem_modelsOf.1 hm).1
  · intro hm
    obtain ⟨p, hp, hname⟩ := h.exists_provider hm
    exact ⟨p, hp, mem_modelsOf.2 ⟨hm, hname.symm⟩⟩

end Registry

/-! ## The files of the providers -/

/-- A file that ends with the modules of some models, one for each of them and in
their order. -/
def SourceFile.EndsWith (f : SourceFile) (ms : List Model) (o : GeneratorOptions) : Prop :=
  ∃ opening, f.contents = opening ++ Code.join (Source.embeddedLines ms o)

/-- A file that opens the module of a model, on a line of its own. A name with
breaks in it takes more than one. -/
def SourceFile.Opens (f : SourceFile) (m : Model) : Prop :=
  ∃ above below, f.contents =
    Code.join (above ++ Text.lines ("pub mod " ++ Naming.moduleName m.name ++ " \x7b" ++ "\n") ++ below)

/-- **Every model is rendered in one file**: a file is of a registered provider
and ends with the modules of its models, each of which it opens, no two files are
of one provider, and every model is of the provider of one file. -/
structure Registry.IsRenderedOnce (r : Registry) (o : GeneratorOptions) : Prop where
  file_eq : ∀ f ∈ Source.generate r o, ∃ p ∈ r.providers.values,
    f = Source.renderFile p (r.modelsOf p.name) o ∧ f.EndsWith (r.modelsOf f.provider) o
  opens : ∀ f ∈ Source.generate r o, ∀ m ∈ r.modelsOf f.provider, f.Opens m
  providers_nodup : ((Source.generate r o).map (·.provider)).Nodup
  models_perm : ((Source.generate r o).flatMap fun f => r.modelsOf f.provider).Perm r.models.values
  existsUnique_file : ∀ m ∈ r.models.values, ∃! f, f ∈ Source.generate r o ∧ m ∈ r.modelsOf f.provider

namespace Source

variable {r : Registry} {o : GeneratorOptions}

theorem endsWith_renderFile (p : Provider) (ms : List Model) (o : GeneratorOptions) :
    (renderFile p ms o).EndsWith ms o := by
  refine ⟨"// " ++ o.header ++ "\n" ++ Code.join (markLines p ms o ++ providerLine :: schemaLines p ms o), ?_⟩
  rw [contents_renderFile]
  simp [Code.join, String.append_assoc]

/-- The lines of a module: a comment, the line that opens it, and what stands
below. -/
theorem exists_lines_renderModule (m : Model) (o : GeneratorOptions) : ∃ comment below,
    Text.lines (renderModule m o) =
      comment ++ Text.lines ("pub mod " ++ Naming.moduleName m.name ++ " \x7b" ++ "\n") ++ below := by
  obtain ⟨ls, hls⟩ : ∃ ls, (Code.run 0 (moduleSteps m o)).1 =
      ("/// Table \x60" ++ m.tableName ++ "\x60 for \x60" ++ m.name ++ "\x60.") ::
        ("pub mod " ++ Naming.moduleName m.name ++ " \x7b") :: ls := by
    rw [moduleSteps_eq]
    simp only [Code.run_cons, Code.run_nil, Code.runStep, Code.indentLine_zero]
    exact ⟨_, rfl⟩
  have hjoin (l : String) (ls : List String) : Code.join (l :: ls) = l ++ "\n" ++ Code.join ls := by
    simp [Code.join]
  rw [renderModule, Code.text, hls, hjoin, hjoin, Text.lines_append_break, Text.lines_append_break,
    ← List.append_assoc]
  exact ⟨_, _, rfl⟩

/-- **Every module is opened** in the file that its model is rendered in. -/
theorem opens_renderFile (p : Provider) (o : GeneratorOptions) {ms : List Model} {m : Model} (hm : m ∈ ms) :
    (renderFile p ms o).Opens m := by
  obtain ⟨before, after, hms⟩ := List.append_of_mem hm
  obtain ⟨comment, below, hmodule⟩ := exists_lines_renderModule m o
  have hembedded : embeddedLines ms o = (embeddedLines before o ++ "" :: comment) ++
      Text.lines ("pub mod " ++ Naming.moduleName m.name ++ " \x7b" ++ "\n") ++
        (below ++ embeddedLines after o) := by
    simp only [hms, embeddedLines, List.flatMap_append, List.flatMap_cons, hmodule, List.append_assoc,
      List.cons_append]
  rw [SourceFile.Opens, contents_renderFile, hembedded]
  refine ⟨("// " ++ o.header) :: (markLines p ms o ++ providerLine :: (schemaLines p ms o ++
    (embeddedLines before o ++ "" :: comment))), below ++ embeddedLines after o, ?_⟩
  simp [Code.join]

/-- The files have the models of all providers, as a provider that has none has
no file. -/
theorem flatMap_generate (r : Registry) (o : GeneratorOptions) :
    ((generate r o).flatMap fun f => r.modelsOf f.provider) = r.providers.values.flatMap fun p => r.modelsOf p.name := by
  rw [generate_eq, List.flatMap_map]
  simp only [fileOf, renderFile]
  induction r.providers.values with
  | nil => rfl
  | cons p ps ih =>
    rw [List.filter_cons, List.flatMap_cons, ← ih]
    split
    case isTrue => rw [List.flatMap_cons]
    case isFalse hnone =>
      rw [decide_eq_true_eq, not_not] at hnone
      rw [hnone, List.nil_append]

end Source

/-- **What is rendered of a consistent registry.** -/
theorem Registry.IsConsistent.isRenderedOnce {r : Registry} (h : r.IsConsistent) (o : GeneratorOptions) :
    r.IsRenderedOnce o := by
  have hproviders : ((Source.generate r o).map (·.provider)).Nodup := by
    rw [Source.providers_generate]
    exact h.providers_areFiled.nodup_names_values.filter _
  refine ⟨fun f hf => ?_, fun f hf m hm => ?_, hproviders, ?_, fun m hm => ?_⟩
  · obtain ⟨p, hp, -, rfl⟩ := Source.mem_generate.1 hf
    exact ⟨p, hp, rfl, Source.endsWith_renderFile p _ o⟩
  · obtain ⟨p, hp, -, rfl⟩ := Source.mem_generate.1 hf
    exact Source.opens_renderFile p o hm
  · rw [Source.flatMap_generate]
    exact h.isPartitioned.models_perm
  · obtain ⟨p, hp, hname⟩ := h.exists_provider hm
    have hmem : m ∈ r.modelsOf p.name := mem_modelsOf.2 ⟨hm, hname.symm⟩
    have hfile : Source.fileOf r p o ∈ Source.generate r o :=
      Source.mem_generate.2 ⟨p, hp, List.ne_nil_of_mem hmem, rfl⟩
    refine ⟨Source.fileOf r p o, ⟨hfile, hmem⟩, ?_⟩
    rintro g ⟨hg, hgm⟩
    have hsame : g.provider = (Source.fileOf r p o).provider := (mem_modelsOf.1 hgm).2.symm.trans hname.symm
    exact List.inj_on_of_nodup_map hproviders hg hfile hsame

/-- **Registries stay consistent however they are filled.** Everything is filed
under its own name and in the order of names, models are of registered
providers, every step answers what it replaces and leaves the rest, every model
is of exactly one provider, and it is rendered in exactly one file. -/
theorem registry_runs_are_consistent (steps : List Registry.Insertion) (o : GeneratorOptions) :
    (Registry.run steps).IsConsistent ∧
      ((Registry.run steps).models.values.Pairwise fun m n => compare m.name n.name = .lt) ∧
      ((Registry.run steps).providers.values.Pairwise fun p q => compare p.name q.name = .lt) ∧
      Registry.IsOf steps (Registry.run steps) ∧
      (∀ p, (Registry.run steps).ExchangesProvider p) ∧ (∀ m, (Registry.run steps).ExchangesModel m) ∧
      (Registry.run steps).IsPartitioned ∧ (Registry.run steps).IsRenderedOnce o := by
  have hrun := Registry.isConsistent_run steps
  exact ⟨hrun, hrun.models_areFiled.pairwise_values, hrun.providers_areFiled.pairwise_values, Registry.isOf_run steps,
    Registry.exchangesProvider _, Registry.exchangesModel _, hrun.isPartitioned, hrun.isRenderedOnce o⟩

/-- A model that is registered anew for another provider leaves its first one
without models and without a file. It is rendered in the file of the other. -/
theorem registry_runs_are_consistent_moved :
    let user := { Sample.User.model with provider := Sample.contactsProvider }
    let r := Registry.run [.model Sample.User.model, .model user]
    r.providers.values = [Sample.appDatabase, Sample.contactsProvider] ∧ r.modelsOf Sample.appDatabase.name = [] ∧
      ∃ f, Source.generate r {} = [f] ∧ f.provider = Sample.contactsProvider.name ∧ f.Opens user := by
  intro user r
  have hproviders : r.providers.values = [Sample.appDatabase, Sample.contactsProvider] ∧
      r.modelsOf Sample.appDatabase.name = [] ∧ (Source.generate r {}).map (·.provider) = [Sample.contactsProvider.name] ∧
        user ∈ r.modelsOf Sample.contactsProvider.name := by
    decide +kernel
  obtain ⟨hall, hnone, hfiles, hmem⟩ := hproviders
  obtain ⟨f, hgenerate, hprovider⟩ := List.map_eq_singleton_iff.1 hfiles
  have hrendered := (registry_runs_are_consistent [.model Sample.User.model, .model user] {}).2.2.2.2.2.2.2
  refine ⟨hall, hnone, f, hgenerate, hprovider, hrendered.opens f ?_ user ?_⟩
  · exact hgenerate ▸ List.mem_singleton_self f
  · exact hprovider ▸ hmem

end TypedTables

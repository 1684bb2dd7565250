import TypedTables.Proofs.Extraction.Inheritance
import TypedTables.Proofs.Registry.Directory
import TypedTables.Source.File
/-!
# TypedTables — declarations in any order

The order in which declarations stand in a project is not part of what they
say. Only the names are looked at as they come; everything behind them reads
the two directories, which are the same for every order. What was declared
twice makes a difference there, since the last one stays, but it is also an
error in every order.
-/

namespace TypedTables

namespace Extraction

variable {seen : List String} {ps : List ProviderDeclaration} {ms : List ModelDeclaration}
  {d d' : Declarations} {r : Registry}

/-! ## Errors in names -/

/-- The errors in the name of a provider by itself. -/
def ownProviderNameErrors (p : ProviderDeclaration) : List ExtractionError :=
  if Text.allBlank p.name then [.emptyName .provider]
  else errorUnless (Identifier.isValid p.name) (.invalidProviderName p.name)

/-- The errors in the name of a model by itself. -/
def ownModelNameErrors (m : ModelDeclaration) : List ExtractionError :=
  errorUnless (!Text.allBlank m.name) (.emptyName .model)

/-- Of different names none is met again once it was seen. -/
theorem notMem_cons_of_nodup {α : Type} {name : α → String} {x : α} {xs : List α}
    (hnames : ((x :: xs).map name).Nodup) (hnew : ∀ y ∈ x :: xs, name y ∉ seen) :
    ∀ y ∈ xs, name y ∉ name x :: seen := by
  intro y hy hmem
  rcases List.mem_cons.1 hmem with hsame | hmem
  · exact (List.nodup_cons.1 hnames).1 (List.mem_map.2 ⟨y, hy, hsame⟩)
  · exact hnew y (List.mem_cons_of_mem x hy) hmem

/-- **Where names are different, each is looked at by itself.** The names that
were seen are those of the providers before, so none of them comes again. -/
theorem providerNameErrors_eq (hnames : (ps.map (·.name)).Nodup) (hnew : ∀ p ∈ ps, p.name ∉ seen) :
    providerNameErrors seen ps = ps.flatMap ownProviderNameErrors := by
  induction ps generalizing seen with
  | nil => rfl
  | cons p ps ih =>
    have hps : (ps.map (·.name)).Nodup := (List.nodup_cons.1 hnames).2
    obtain ⟨hfirst, hrest⟩ := List.forall_mem_cons.1 hnew
    rw [List.flatMap_cons, providerNameErrors, ownProviderNameErrors]
    by_cases hblank : Text.allBlank p.name = true
    · rw [if_pos hblank, if_pos hblank, ih hps hrest]
      rfl
    · have hseen : ¬seen.contains p.name = true := by simpa using hfirst
      rw [if_neg hblank, if_neg hblank, if_neg hseen, ih hps (notMem_cons_of_nodup hnames hnew)]

theorem modelNameErrors_eq (hnames : (ms.map (·.name)).Nodup) (hnew : ∀ m ∈ ms, m.name ∉ seen) :
    modelNameErrors seen ms = ms.flatMap ownModelNameErrors := by
  induction ms generalizing seen with
  | nil => rfl
  | cons m ms ih =>
    have hms : (ms.map (·.name)).Nodup := (List.nodup_cons.1 hnames).2
    obtain ⟨hfirst, hrest⟩ := List.forall_mem_cons.1 hnew
    rw [List.flatMap_cons, modelNameErrors, ownModelNameErrors]
    by_cases hblank : Text.allBlank m.name = true
    · rw [if_pos hblank, ih hms hrest, hblank]
      rfl
    · have hseen : ¬seen.contains m.name = true := by simpa using hfirst
      rw [if_neg hblank, if_neg hseen, ih hms (notMem_cons_of_nodup hnames hnew),
        eq_false_of_ne_true hblank]
      rfl

/-! ## Two orders of the same declarations -/

/-- What is filed under its own name is filed alike in every order. -/
theorem filed_perm {α : Type} (keep : α → Bool) {name : α → String} {xs ys : List α} (h : xs.Perm ys)
    (hnames : (xs.map name).Nodup) :
    Directory.ofList ((xs.filter keep).map fun x => (name x, x)) =
      Directory.ofList ((ys.filter keep).map fun x => (name x, x)) := by
  refine Directory.ofList_perm ((h.filter keep).map _) ?_
  rw [List.map_map]
  exact hnames.sublist (List.filter_sublist.map name)

/-- **The order of declarations does not matter where their names are
different**: the same is found, and the errors are the same up to their order. -/
theorem findings_perm (hp : d.providers.Perm d'.providers) (hm : d.models.Perm d'.models)
    (hproviders : (d.providers.map (·.name)).Nodup) (hmodels : (d.models.map (·.name)).Nodup) :
    (findings d).errors.Perm (findings d').errors ∧ (findings d).result = (findings d').result := by
  have hproviders' : (d'.providers.map (·.name)).Nodup := (hp.map _).nodup_iff.1 hproviders
  have hmodels' : (d'.models.map (·.name)).Nodup := (hm.map _).nodup_iff.1 hmodels
  have hfiledProviders : providerDirectory d.providers = providerDirectory d'.providers :=
    filed_perm _ hp hproviders
  have hfiledModels : modelDirectory d.models = modelDirectory d'.models := filed_perm _ hm hmodels
  have hprovidersPerm :
      (providerNameErrors [] d.providers).Perm (providerNameErrors [] d'.providers) := by
    rw [providerNameErrors_eq hproviders fun _ _ => List.not_mem_nil,
      providerNameErrors_eq hproviders' fun _ _ => List.not_mem_nil]
    exact hp.flatMap_right _
  have hmodelsPerm : (modelNameErrors [] d.models).Perm (modelNameErrors [] d'.models) := by
    rw [modelNameErrors_eq hmodels fun _ _ => List.not_mem_nil,
      modelNameErrors_eq hmodels' fun _ _ => List.not_mem_nil]
    exact hm.flatMap_right _
  -- all that comes after the names is said of the two directories alone
  simp only [findings, hfiledProviders, hfiledModels, List.append_assoc, and_true]
  exact hprovidersPerm.append (hmodelsPerm.append (.refl _))

/-- What is extracted from declarations is extracted from them in every order. -/
theorem extract_of_perm (hp : d.providers.Perm d'.providers) (hm : d.models.Perm d'.models)
    (h : extract d = .ok r) : extract d' = .ok r := by
  obtain ⟨hclean, -⟩ := isClean_of_extract h
  obtain ⟨hnone, rfl⟩ := errors_of_extract h
  obtain ⟨herrors, hresult⟩ := findings_perm hp hm hclean.providerNames_nodup hclean.modelNames_nodup
  rw [hnone, List.nil_perm] at herrors
  rw [extract_of_errors_eq_nil herrors, hresult]

/-- Declarations that are refused are refused with what was found in them. -/
theorem errors_of_refused {es : List ExtractionError} (h : extract d = .error es) :
    es = (findings d).errors := by
  unfold extract at h
  simp only at h
  split at h
  · cases h
  · exact (Except.error.inj h).symm

end Extraction

open Extraction in
/-- **The order of declarations never matters.** Declarations in two orders are
both accepted or both refused. If they are accepted, they make one registry, and
one set of generated files; if they are refused and all names are different, the
errors are the same up to their order. -/
theorem declarations_in_any_order {d d' : Declarations} (hp : d.providers.Perm d'.providers)
    (hm : d.models.Perm d'.models) :
    ((∃ r, extract d = .ok r) ↔ ∃ r, extract d' = .ok r) ∧
    (∀ r r', extract d = .ok r → extract d' = .ok r' →
      r = r' ∧ ∀ o, Source.generate r o = Source.generate r' o) ∧
    ((d.providers.map (·.name)).Nodup → (d.models.map (·.name)).Nodup →
      ∀ es es', extract d = .error es → extract d' = .error es' → es.Perm es') := by
  refine ⟨⟨?_, ?_⟩, ?_, ?_⟩
  · rintro ⟨r, h⟩
    exact ⟨r, extract_of_perm hp hm h⟩
  · rintro ⟨r, h⟩
    exact ⟨r, extract_of_perm hp.symm hm.symm h⟩
  · intro r r' h h'
    have hsame : r = r' := Except.ok.inj ((extract_of_perm hp hm h).symm.trans h')
    exact ⟨hsame, fun o => by rw [hsame]⟩
  · intro hproviders hmodels es es' h h'
    rw [errors_of_refused h, errors_of_refused h']
    exact (findings_perm hp hm hproviders hmodels).1

/-- Two providers with names that are no identifiers, a model without a name,
and one without anything else. -/
def clutteredDeclarations : Declarations where
  providers := [⟨"main-store", ProviderKind.localRoot, none, none⟩,
    ⟨"side-store", ProviderKind.contentRoot, none, none⟩]
  models := [{ name := " " }, { name := "Empty" }]

/-- The same declarations from the last to the first. -/
def Declarations.reversed (d : Declarations) : Declarations := ⟨d.providers.reverse, d.models.reverse⟩

theorem Declarations.reversed_perm (d : Declarations) :
    d.providers.Perm d.reversed.providers ∧ d.models.Perm d.reversed.models :=
  ⟨(List.reverse_perm _).symm, (List.reverse_perm _).symm⟩

/-- Books and authors are extracted backwards as well. What is wrong with the
cluttered declarations is listed in another order then. -/
theorem declarations_in_any_order_reversed :
    (∃ r, extract libraryDeclarations = .ok r ∧ extract libraryDeclarations.reversed = .ok r) ∧
      ∃ es es', extract clutteredDeclarations = .error es ∧
        extract clutteredDeclarations.reversed = .error es' ∧ es ≠ es' ∧ es.Perm es' := by
  constructor
  · obtain ⟨hp, hm⟩ := libraryDeclarations.reversed_perm
    obtain ⟨haccepted, hsame, -⟩ := declarations_in_any_order hp hm
    have hok := extract_of_errors_eq_nil
      (show (Extraction.findings libraryDeclarations).errors = [] by decide +kernel)
    obtain ⟨r', hr'⟩ := haccepted.1 ⟨_, hok⟩
    obtain ⟨rfl, -⟩ := hsame _ _ hok hr'
    exact ⟨_, hok, hr'⟩
  · obtain ⟨hp, hm⟩ := clutteredDeclarations.reversed_perm
    obtain ⟨-, -, hrefused⟩ := declarations_in_any_order hp hm
    have hfound : extract clutteredDeclarations =
        .error (Extraction.findings clutteredDeclarations).errors := by decide +kernel
    have hfound' : extract clutteredDeclarations.reversed =
        .error (Extraction.findings clutteredDeclarations.reversed).errors := by decide +kernel
    exact ⟨_, _, hfound, hfound', by decide +kernel,
      hrefused (by decide +kernel) (by decide +kernel) _ _ hfound hfound'⟩

end TypedTables

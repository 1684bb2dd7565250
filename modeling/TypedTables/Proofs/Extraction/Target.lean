import TypedTables.Proofs.Extraction.Order
/-!
# TypedTables — targets that are not found

The target of a foreign key is looked for among the models that were built. A
declaration in which something else is wrong is not among them, so a key that
points to its table is reported as well, although the table is declared. That
is the only way in which such a report is false: every declaration that maps
the table has been left out, and whatever was left out has a report of its own.
-/

namespace TypedTables

open Extraction (contextOf modelDirectory modelKinship buildModel buildModels tableOf)

/-! ## Tables that are declared -/

/-- **The provider that a model names**, itself or through what it extends: the
nearest one that is stated. -/
inductive ModelDeclaration.Names (ms : List ModelDeclaration) : ModelDeclaration → String → Prop
  /-- The model states a provider. -/
  | own {m : ModelDeclaration} {provider : String} : m.provider = some provider → Names ms m provider
  /-- The model states none, and what it extends names one. -/
  | inherited {m base : ModelDeclaration} {parent provider : String} : m.provider = none →
      m.parent = some parent → (modelDirectory ms).find? parent = some base → Names ms base provider →
      Names ms m provider

/-- **A declaration that maps a table of a provider**: one that is no base alone,
names the provider, and has the table as its own. -/
structure ModelDeclaration.Maps (m : ModelDeclaration) (ms : List ModelDeclaration) (provider table : String) :
    Prop where
  isDeclared : m ∈ ms
  isConcrete : m.isAbstract = false
  names : Names ms m provider
  table_eq : tableOf m = table

/-- A declaration of which nothing is built: it is not the one that is found
under its name, or something is wrong in it. -/
def ModelDeclaration.IsLeftOut (m : ModelDeclaration) (d : Declarations) : Prop :=
  (modelDirectory d.models).find? m.name ≠ some m ∨ (buildModel (contextOf d) m).errors ≠ []

/-- Whether an error says that the target of a foreign key is not there. -/
def ExtractionError.isUnresolved : ExtractionError → Bool
  | .unresolvedForeignKey .. => true
  | _ => false

namespace ModelDeclaration

variable {ms : List ModelDeclaration} {m : ModelDeclaration} {chain : List ModelDeclaration} {provider : String}

/-- Along a line of parents the provider is the first one that is stated. -/
theorem names_iff_of_isLine (h : Ancestry.IsLine (modelKinship (modelDirectory ms)) m chain) :
    Names ms m provider ↔ chain.findSome? (·.provider) = some provider := by
  induction h with
  | @last m hnone =>
    have hnone : m.parent = none := hnone
    constructor
    · rintro (hown | ⟨-, hparent, -, -⟩)
      · rw [List.findSome?_cons, hown]
      · rw [hnone] at hparent
        cases hparent
    · intro hfirst
      rcases hown : m.provider with _ | p <;> simp only [List.findSome?_cons, hown] at hfirst
      · cases hfirst
      · exact .own (hown.trans hfirst)
  | @step m base parent line hparent hfind _ ih =>
    constructor
    · rintro (hown | ⟨hnone, hparent', hfind', hbase⟩)
      · rw [List.findSome?_cons, hown]
      · obtain rfl := Option.some.inj (hparent.symm.trans hparent')
        obtain rfl := Option.some.inj (hfind.symm.trans hfind')
        rw [List.findSome?_cons, hnone]
        exact ih.1 hbase
    · intro hfirst
      rcases hown : m.provider with _ | p <;> simp only [List.findSome?_cons, hown] at hfirst
      · exact .inherited hown hparent hfind (ih.2 hfirst)
      · exact .own (hown.trans hfirst)

end ModelDeclaration

namespace Extraction

variable {c : Context} {d : Declarations} {m x : ModelDeclaration} {built : Model} {e : ExtractionError}
  {name model table : String} {es : List ExtractionError}

/-! ## What is filed under a name -/

/-- Whatever names the declarations have, one that is filed is one of them and
filed under its own name. -/
theorem of_mem_modelDirectory {ms : List ModelDeclaration} {entry : String × ModelDeclaration}
    (h : entry ∈ (modelDirectory ms).entries) : entry.1 = entry.2.name ∧ entry.2 ∈ ms := by
  obtain ⟨y, hy, rfl⟩ := List.mem_map.1 (Directory.mem_of_mem_ofList h)
  exact ⟨rfl, (List.mem_filter.1 hy).1⟩

/-- The declarations that are listed are those that are found by their names. -/
theorem mem_values_modelDirectory {ms : List ModelDeclaration} :
    m ∈ (modelDirectory ms).values ↔ (modelDirectory ms).find? m.name = some m := by
  constructor
  · intro h
    obtain ⟨entry, hentry, rfl⟩ := List.mem_map.1 h
    rw [← (of_mem_modelDirectory hentry).1]
    exact Directory.find?_of_mem (Directory.nodup_names _) hentry
  · exact fun h => List.mem_map_of_mem (Directory.mem_of_find? h)

/-- A name that was seen is reported where it comes again. -/
theorem duplicateModel_mem_of_seen {seen : List String} {ms : List ModelDeclaration} (hx : x ∈ ms)
    (hname : Text.allBlank x.name = false) (hseen : x.name ∈ seen) :
    .duplicateModel x.name ∈ modelNameErrors seen ms := by
  induction ms generalizing seen with
  | nil => cases hx
  | cons m ms ih =>
    unfold modelNameErrors
    rcases List.mem_cons.1 hx with rfl | hx
    · rw [if_neg (by simp [hname]), if_pos (by simpa using hseen)]
      exact List.mem_cons_self
    · split
      · exact List.mem_cons_of_mem _ (ih hx hseen)
      split
      · exact List.mem_cons_of_mem _ (ih hx hseen)
      · exact ih hx (List.mem_cons_of_mem _ hseen)

/-- **Two declarations of one name are reported**, whichever comes first. -/
theorem duplicateModel_mem (seen : List String) {ms : List ModelDeclaration} (hm : m ∈ ms) (hx : x ∈ ms)
    (hne : m ≠ x) (hsame : m.name = x.name) (hname : Text.allBlank x.name = false) :
    .duplicateModel x.name ∈ modelNameErrors seen ms := by
  induction ms generalizing seen with
  | nil => cases hx
  | cons first ms ih =>
    unfold modelNameErrors
    by_cases hblank : Text.allBlank first.name = true
    · rw [if_pos hblank]
      have hm : m ∈ ms := (List.mem_cons.1 hm).resolve_left (by rintro rfl; simp [hsame, hname] at hblank)
      have hx : x ∈ ms := (List.mem_cons.1 hx).resolve_left (by rintro rfl; simp [hname] at hblank)
      exact List.mem_cons_of_mem _ (ih _ hm hx)
    rw [if_neg hblank]
    -- the first of the two is seen when the other one comes
    rcases List.mem_cons.1 hm with rfl | hm' <;> rcases List.mem_cons.1 hx with rfl | hx'
    · exact absurd rfl hne
    · split
      · rw [hsame]
        exact List.mem_cons_self
      · exact duplicateModel_mem_of_seen hx' hname (hsame ▸ List.mem_cons_self)
    · split
      · exact List.mem_cons_self
      · rw [← hsame] at hname ⊢
        exact duplicateModel_mem_of_seen hm' hname (hsame ▸ List.mem_cons_self)
    · split
      · exact List.mem_cons_of_mem _ (ih _ hm' hx')
      · exact ih _ hm' hx'

theorem emptyName_mem {seen : List String} {ms : List ModelDeclaration} (hx : x ∈ ms)
    (hname : Text.allBlank x.name = true) : .emptyName .model ∈ modelNameErrors seen ms := by
  induction ms generalizing seen with
  | nil => cases hx
  | cons m ms ih =>
    unfold modelNameErrors
    rcases List.mem_cons.1 hx with rfl | hx
    · rw [if_pos hname]
      exact List.mem_cons_self
    · split
      · exact List.mem_cons_self
      split
      · exact List.mem_cons_of_mem _ (ih hx)
      · exact ih hx

/-! ## Errors that do not speak of targets -/

/-- Errors of a declaration by itself, none of which says that a target is not
there. -/
def AreOwn (es : List ExtractionError) : Prop := ∀ e ∈ es, e.isUnresolved = false

theorem AreOwn.unresolved_notMem (h : AreOwn es) : .unresolvedForeignKey name table ∉ es := by
  intro hmem
  cases h _ hmem

@[simp] theorem areOwn_nil : AreOwn [] := List.forall_mem_nil _

@[simp] theorem areOwn_cons : AreOwn (e :: es) ↔ e.isUnresolved = false ∧ AreOwn es := List.forall_mem_cons

@[simp] theorem areOwn_append {es' : List ExtractionError} : AreOwn (es ++ es') ↔ AreOwn es ∧ AreOwn es' :=
  List.forall_mem_append

theorem areOwn_errorUnless {holds : Bool} (h : e.isUnresolved = false) : AreOwn (errorUnless holds e) := by
  cases holds <;> simp [errorUnless, h]

theorem areOwn_flatMap {α : Type} {f : α → List ExtractionError} {xs : List α} (h : ∀ x ∈ xs, AreOwn (f x)) :
    AreOwn (xs.flatMap f) := by
  intro e he
  obtain ⟨x, hx, he⟩ := List.mem_flatMap.1 he
  exact h x hx e he

theorem areOwn_map {α : Type} {f : α → ExtractionError} (h : ∀ x, (f x).isUnresolved = false) (xs : List α) :
    AreOwn (xs.map f) := by
  intro e he
  obtain ⟨x, -, rfl⟩ := List.mem_map.1 he
  exact h x

theorem areOwn_sourceNameErrors {rawAllowed : Bool} : AreOwn (sourceNameErrors model name rawAllowed) := by
  unfold sourceNameErrors
  split
  · simp [ExtractionError.isUnresolved]
  · exact areOwn_errorUnless rfl

theorem areOwn_identifierErrors : AreOwn (identifierErrors model name) := areOwn_errorUnless rfl

theorem isUnresolved_of_typeDeclared {field spelling : String} {chosen : Option SemanticType}
    (h : typeDeclared model field spelling chosen = .error e) : e.isUnresolved = false := by
  unfold typeDeclared at h
  simp only [bind, Except.bind, pure, Except.pure, throw, throwThe, MonadExceptOf.throw] at h
  split at h
  · -- of the two checks the first that fails gives the error
    split at h
    · cases h
      rfl
    split at h
    · cases h
      rfl
    · cases h
  · cases h
    rfl

theorem isUnresolved_of_typeField {member : MemberDeclaration} {a : FieldAttributes}
    (h : typeField model member a = .error e) : e.isUnresolved = false := by
  unfold typeField at h
  split at h
  · cases h
    rfl
  · cases h
  · exact isUnresolved_of_typeDeclared h

theorem areOwn_buildField {member : MemberDeclaration} {a : FieldAttributes} :
    AreOwn (buildField model member a).errors := by
  unfold buildField
  rcases htyping : typeField model member a with e | typing
  · simpa using ⟨areOwn_identifierErrors, isUnresolved_of_typeField htyping⟩
  · simp only [attributeErrors, areOwn_append]
    exact ⟨areOwn_identifierErrors, ⟨areOwn_errorUnless rfl, areOwn_errorUnless rfl⟩, areOwn_errorUnless rfl⟩

theorem areOwn_buildMember {member : MemberDeclaration} : AreOwn (buildMember model member).errors := by
  have hname : AreOwn (if member.isHook || member.field.isSome then sourceNameErrors model member.name true
      else []) := by
    split
    · exact areOwn_sourceNameErrors
    · exact areOwn_nil
  unfold buildMember
  rcases hfield : member.field with _ | a <;> rw [hfield] at hname
  · exact hname
  · exact areOwn_append.2 ⟨hname, areOwn_buildField⟩

theorem areOwn_buildMembers {seen : List String} {members : List MemberDeclaration} :
    AreOwn (buildMembers model seen members).errors := by
  induction members generalizing seen with
  | nil => exact areOwn_nil
  | cons member members ih =>
    unfold buildMembers
    split
    · exact areOwn_cons.2 ⟨rfl, ih⟩
    · exact areOwn_append.2 ⟨areOwn_buildMember, ih⟩

theorem areOwn_keyErrors {fields : List Field} : AreOwn (keyErrors model fields) := by
  unfold keyErrors
  split <;> simp [ExtractionError.isUnresolved]

theorem areOwn_findProvider {provider : Option String} : AreOwn (findProvider c model provider).errors := by
  unfold findProvider
  split
  · simp [Findings.fail, ExtractionError.isUnresolved]
  · split
    · exact areOwn_nil
    · exact areOwn_errorUnless rfl

/-- **What is wrong in a declaration is no missing target**: these are looked for
when all models have been built. -/
theorem areOwn_buildModel : AreOwn (buildModel c m).errors := by
  unfold buildModel
  rcases hchain : lineage c.declaredModels m with e | chain
  · unfold lineage at hchain
    split at hchain <;> cases hchain <;> simp [Findings.fail, ExtractionError.isUnresolved]
  · have hpackage (package : Option String) : AreOwn (packageErrors m.name package) := by
      cases package
      · simp [packageErrors, ExtractionError.isUnresolved]
      · exact areOwn_errorUnless rfl
    have htable : AreOwn ((m.table.map (identifierErrors m.name)).getD []) := by
      cases m.table
      · exact areOwn_nil
      · exact areOwn_identifierErrors
    simp only [buildFromLineage, areOwn_append]
    refine ⟨⟨⟨⟨⟨⟨⟨⟨areOwn_sourceNameErrors, hpackage _⟩, areOwn_findProvider⟩, htable⟩, areOwn_buildMembers⟩,
      areOwn_map (fun _ => rfl) _⟩, areOwn_keyErrors⟩, ?_⟩, ?_⟩
    · exact areOwn_flatMap fun _ _ => areOwn_errorUnless rfl
    · exact areOwn_flatMap fun _ _ => areOwn_append.2
        ⟨areOwn_append.2 ⟨areOwn_errorUnless rfl, areOwn_identifierErrors⟩, areOwn_identifierErrors⟩

theorem isUnresolved_of_resolveProvider {declared : Directory ProviderDeclaration} {p : ProviderDeclaration}
    (h : resolveProvider declared p = .error e) : e.isUnresolved = false := by
  unfold resolveProvider at h
  split at h
  · cases h
    rfl
  · cases h
    rfl
  · unfold bindProvider at h
    split at h
    · split at h <;> cases h
      rfl
    · cases h

theorem areOwn_resolveProviders {declared : Directory ProviderDeclaration} :
    AreOwn (resolveProviders declared).errors := by
  refine areOwn_flatMap fun p _ => ?_
  rcases hresolved : resolveProvider declared p with e | q <;> simp only [hresolved]
  · exact areOwn_cons.2 ⟨isUnresolved_of_resolveProvider hresolved, areOwn_nil⟩
  · exact areOwn_nil

theorem areOwn_modelNameErrors {seen : List String} {ms : List ModelDeclaration} :
    AreOwn (modelNameErrors seen ms) := by
  induction ms generalizing seen with
  | nil => exact areOwn_nil
  | cons m ms ih =>
    unfold modelNameErrors
    split
    · exact areOwn_cons.2 ⟨rfl, ih⟩
    split
    · exact areOwn_cons.2 ⟨rfl, ih⟩
    · exact ih

theorem areOwn_providerNameErrors {seen : List String} {ps : List ProviderDeclaration} :
    AreOwn (providerNameErrors seen ps) := by
  induction ps generalizing seen with
  | nil => exact areOwn_nil
  | cons p ps ih =>
    unfold providerNameErrors
    split
    · exact areOwn_cons.2 ⟨rfl, ih⟩
    split
    · exact areOwn_cons.2 ⟨rfl, ih⟩
    · exact areOwn_append.2 ⟨areOwn_errorUnless rfl, ih⟩

/-! ## Targets that are reported -/

/-- What is found in declarations, part by part. -/
theorem errors_findings (d : Declarations) : (findings d).errors =
    providerNameErrors [] d.providers ++ modelNameErrors [] d.models ++
      (resolveProviders (providerDirectory d.providers)).errors ++ (buildModels (contextOf d)).errors ++
      tableErrors (buildModels (contextOf d)).result ++ allTargetErrors (buildModels (contextOf d)).result ++
      fileErrors (buildModels (contextOf d)).result ++ moduleErrors (buildModels (contextOf d)).result := rfl

/-- The error of a foreign key whose table no model has. -/
theorem unresolved_mem_targetErrors {models : List Model} {m : Model} {fk : ForeignKey} :
    .unresolvedForeignKey name table ∈ targetErrors models m fk ↔
      m.name = name ∧ fk.targetTable = table ∧ targetOf models m fk = none := by
  unfold targetErrors
  rcases targetOf models m fk with _ | target
  · simp [eq_comm]
  · simpa using (areOwn_errorUnless rfl).unresolved_notMem

/-- **Missing targets are found among all models together.** -/
theorem unresolved_mem_findings : .unresolvedForeignKey name table ∈ (findings d).errors ↔
    ∃ m ∈ (buildModels (contextOf d)).result, ∃ fk ∈ m.foreignKeys,
      m.name = name ∧ fk.targetTable = table ∧ targetOf (buildModels (contextOf d)).result m fk = none := by
  have hbuilt : AreOwn (buildModels (contextOf d)).errors := areOwn_flatMap fun _ _ => areOwn_buildModel
  have htables (ms : List Model) : AreOwn (tableErrors ms) := areOwn_map (fun _ => rfl) _
  have hfiles (ms : List Model) : AreOwn (fileErrors ms) := areOwn_map (fun _ => rfl) _
  have hmodules (ms : List Model) : AreOwn (moduleErrors ms) := areOwn_map (fun _ => rfl) _
  simp only [errors_findings, List.mem_append, areOwn_providerNameErrors.unresolved_notMem,
    areOwn_modelNameErrors.unresolved_notMem, areOwn_resolveProviders.unresolved_notMem,
    hbuilt.unresolved_notMem, (htables _).unresolved_notMem, (hfiles _).unresolved_notMem,
    (hmodules _).unresolved_notMem, false_or, or_false]
  simp only [allTargetErrors, List.mem_flatMap, unresolved_mem_targetErrors]

/-- A model is built of the declaration that is found under its name. -/
theorem mem_buildModels : built ∈ (buildModels c).result ↔
    ∃ m ∈ c.declaredModels.values, m.isAbstract = false ∧ (buildModel c m).result = some built := by
  simp only [buildModels, Findings.collectSome, List.mem_filterMap, List.mem_filter, Bool.not_eq_true', and_assoc]

/-- A model that is built has the table of its declaration, and the provider
that this names. -/
theorem maps_of_buildModel (hm : m ∈ d.models) (hconcrete : m.isAbstract = false)
    (h : (buildModel (contextOf d) m).result = some built) :
    m.Maps d.models built.provider.name built.tableName := by
  obtain ⟨chain, hchain, hflattened⟩ := isFlattened_of_buildModel h
  exact {
    isDeclared := hm
    isConcrete := hconcrete
    names := (ModelDeclaration.names_iff_of_isLine (isLine_of_lineage hchain)).2 hflattened.provider
    table_eq := hflattened.tableName.symm }

/-- What is built is built without errors. -/
theorem errors_of_buildModel (h : (buildModel c m).result = some built) : (buildModel c m).errors = [] := by
  unfold buildModel at h ⊢
  rcases hchain : lineage c.declaredModels m with e | chain
  · rw [hchain] at h
    cases h
  · simp only [hchain, buildFromLineage] at h ⊢
    split at h
    case h_1 herrors _ _ => exact herrors
    case h_2 => cases h

/-- **A declaration without errors is built**, if the provider that it names was
resolved. -/
theorem exists_built_of_names {provider : String} (hnames : m.Names d.models provider)
    (hprovider : ((contextOf d).provider? provider).isSome = true)
    (h : (buildModel (contextOf d) m).errors = []) :
    ∃ built, (buildModel (contextOf d) m).result = some built ∧ built.provider.name = provider ∧
      built.tableName = tableOf m := by
  obtain ⟨p, hp⟩ := Option.isSome_iff_exists.1 hprovider
  obtain ⟨built, hbuilt⟩ : ∃ built, (buildModel (contextOf d) m).result = some built := by
    unfold buildModel at h ⊢
    rcases hchain : lineage (contextOf d).declaredModels m with e | chain
    · simp only [hchain] at h
      cases h
    have hline : Ancestry.IsLine (modelKinship (modelDirectory d.models)) m chain := isLine_of_lineage hchain
    have hfirst := (ModelDeclaration.names_iff_of_isLine hline).1 hnames
    have hfound : (findProvider (contextOf d) m.name (chain.findSome? (·.provider))).result = some p := by
      rw [hfirst, findProvider, hp]
      rfl
    simp only [hchain] at h ⊢
    exact exists_of_buildFromLineage hfound h
  obtain ⟨chain, hchain, hflattened⟩ := isFlattened_of_buildModel hbuilt
  have hfirst := (ModelDeclaration.names_iff_of_isLine (isLine_of_lineage hchain)).1 hnames
  exact ⟨built, hbuilt, Option.some.inj (hflattened.provider.symm.trans hfirst), hflattened.tableName⟩

/-! ## What is left out -/

/-- Of a declaration that is found under its name and has no errors everything
that it maps is built, for every provider that a model could be bound to. -/
theorem exists_built_of_maps {built : Model} (hbuilt : (buildModel (contextOf d) m).result = some built)
    (hx : x.Maps d.models built.provider.name table) (hleft : ¬x.IsLeftOut d) :
    ∃ target ∈ (buildModels (contextOf d)).result,
      target.provider.name = built.provider.name ∧ target.tableName = table := by
  obtain ⟨hfiled, herrors⟩ := not_or.1 hleft
  have hprovider : ((contextOf d).provider? built.provider.name).isSome = true := by
    have hmem : built.provider ∈ (contextOf d).providers := (isSound_of_buildModel hbuilt).2.2
    exact List.find?_isSome.2 ⟨built.provider, hmem, beq_self_eq_true _⟩
  obtain ⟨target, htarget, hsame, htable⟩ := exists_built_of_names hx.names hprovider (not_not.1 herrors)
  refine ⟨target, mem_buildModels.2 ⟨x, ?_, hx.isConcrete, htarget⟩, hsame, htable.trans hx.table_eq⟩
  exact mem_values_modelDirectory.2 (not_not.1 hfiled)

/-- **Whatever is left out has an error of its own**: one that was found in it,
or one that its name is blank or stands for another declaration. -/
theorem exists_error_of_isLeftOut (hx : x ∈ d.models) (hconcrete : x.isAbstract = false)
    (h : x.IsLeftOut d) :
    ∃ e ∈ (findings d).errors, e.isUnresolved = false ∧
      (e ∈ (buildModel (contextOf d) x).errors ∨ e = .duplicateModel x.name ∨ e = .emptyName .model) := by
  have hreported {e : ExtractionError} (he : e ∈ modelNameErrors [] d.models) : e ∈ (findings d).errors := by
    simp only [errors_findings, List.mem_append, he, true_or, or_true]
  by_cases hfiled : (modelDirectory d.models).find? x.name = some x
  · obtain ⟨e, he⟩ := List.exists_mem_of_ne_nil _ (h.resolve_left (not_not.2 hfiled))
    have hlisted : x ∈ ((contextOf d).declaredModels.values.filter (!·.isAbstract)) :=
      List.mem_filter.2 ⟨mem_values_modelDirectory.2 hfiled, by simp [hconcrete]⟩
    have hmem : e ∈ (buildModels (contextOf d)).errors := List.mem_flatMap.2 ⟨x, hlisted, he⟩
    refine ⟨e, ?_, areOwn_buildModel e he, .inl he⟩
    simp only [errors_findings, List.mem_append, hmem, true_or, or_true]
  by_cases hblank : Text.allBlank x.name = true
  · exact ⟨_, hreported (emptyName_mem hx hblank), rfl, .inr (.inr rfl)⟩
  -- the name is filed, so another declaration of it is found there
  have hkept : x.name ∈ (modelDirectory d.models).names := by
    refine Directory.mem_names_ofList (List.mem_map.2 ⟨(x.name, x), ?_, rfl⟩)
    exact List.mem_map_of_mem (List.mem_filter.2 ⟨hx, by simpa using hblank⟩)
  obtain ⟨entry, hentry, hname⟩ := List.mem_map.1 hkept
  obtain ⟨hown, hmem⟩ := of_mem_modelDirectory hentry
  have hsame : entry.2.name = x.name := hown.symm.trans hname
  have hne : entry.2 ≠ x := by
    rintro rfl
    exact hfiled (mem_values_modelDirectory.1 (List.mem_map_of_mem hentry))
  have hdup := duplicateModel_mem [] hmem hx hne hsame (eq_false_of_ne_true hblank)
  exact ⟨_, hreported hdup, rfl, .inr (.inl rfl)⟩

/-- A target is missing among the models that were built just if every
declaration that maps the table was left out. -/
theorem targetOf_eq_none_iff {built : Model} {fk : ForeignKey}
    (hbuilt : (buildModel (contextOf d) m).result = some built) :
    targetOf (buildModels (contextOf d)).result built fk = none ↔
      ∀ x : ModelDeclaration, x.Maps d.models built.provider.name fk.targetTable → x.IsLeftOut d := by
  rw [targetOf, List.find?_eq_none]
  constructor
  · intro hnone x hx
    by_contra hleft
    obtain ⟨target, htarget, hprovider, htable⟩ := exists_built_of_maps hbuilt hx hleft
    exact hnone target htarget (by simp [hprovider, htable])
  · intro hleft target htarget hkey
    obtain ⟨hprovider, htable⟩ : target.provider.name = built.provider.name ∧
        target.tableName = fk.targetTable := by simpa using hkey
    obtain ⟨x, hlisted, hconcrete, hx⟩ := mem_buildModels.1 htarget
    have hfiled := mem_values_modelDirectory.1 hlisted
    obtain ⟨entry, hentry, rfl⟩ := List.mem_map.1 hlisted
    have hmaps := maps_of_buildModel (of_mem_modelDirectory hentry).2 hconcrete hx
    rw [hprovider, htable] at hmaps
    exact (hleft _ hmaps).elim (absurd hfiled) (absurd (errors_of_buildModel hx))

end Extraction

open Extraction in
/-- **When a target is reported as missing**, and when that is false. The report
is made for a key of a model that is built, just if every declaration that maps
the table for the model's provider was left out; so it is false just if there
is such a declaration. Whatever was left out has an error besides, and none
that only says that a target is missing. -/
theorem missing_target_iff {d : Declarations} {es : List ExtractionError} (h : extract d = .error es) :
    (∀ name table, .unresolvedForeignKey name table ∈ es ↔
      ∃ m ∈ d.models, ∃ built, m.name = name ∧ m.isAbstract = false ∧ ¬m.IsLeftOut d ∧
        (buildModel (contextOf d) m).result = some built ∧
        (∃ fk ∈ built.foreignKeys, fk.targetTable = table) ∧
        ∀ x : ModelDeclaration, x.Maps d.models built.provider.name table → x.IsLeftOut d) ∧
    ∀ x ∈ d.models, x.isAbstract = false → x.IsLeftOut d → ∃ e ∈ es, e.isUnresolved = false ∧
      (e ∈ (buildModel (contextOf d) x).errors ∨ e = .duplicateModel x.name ∨ e = .emptyName .model) := by
  rw [errors_of_refused h]
  refine ⟨fun name table => ?_, fun x hx hconcrete hleft => exists_error_of_isLeftOut hx hconcrete hleft⟩
  rw [unresolved_mem_findings]
  constructor
  · rintro ⟨built, hmem, fk, hfk, hname, htable, hnone⟩
    obtain ⟨m, hlisted, hconcrete, hbuilt⟩ := mem_buildModels.1 hmem
    have hfiled := mem_values_modelDirectory.1 hlisted
    obtain ⟨entry, hentry, rfl⟩ := List.mem_map.1 hlisted
    have hleft : ¬entry.2.IsLeftOut d := not_or.2 ⟨not_not.2 hfiled, not_not.2 (errors_of_buildModel hbuilt)⟩
    refine ⟨entry.2, (of_mem_modelDirectory hentry).2, built, ?_, hconcrete, hleft, hbuilt, ⟨fk, hfk, htable⟩, ?_⟩
    · exact (isSound_of_buildModel hbuilt).2.1.symm.trans hname
    · exact htable ▸ (targetOf_eq_none_iff hbuilt).1 hnone
  · rintro ⟨m, -, built, hname, hconcrete, hleft, hbuilt, ⟨fk, hfk, htable⟩, hall⟩
    have hfiled : (modelDirectory d.models).find? m.name = some m := not_not.1 (not_or.1 hleft).1
    have hlisted : m ∈ (contextOf d).declaredModels.values := mem_values_modelDirectory.2 hfiled
    refine ⟨built, mem_buildModels.2 ⟨m, hlisted, hconcrete, hbuilt⟩, fk, hfk, ?_, htable, ?_⟩
    · exact (isSound_of_buildModel hbuilt).2.1.trans hname
    · exact (targetOf_eq_none_iff hbuilt).2 (htable ▸ hall)

/-- Authors with a rating whose type is misspelled. -/
def misspelledAuthor : ModelDeclaration :=
  { name := "Author", packagePath := some "crate::library", table := some "authors", provider := some "library",
    members := [⟨"id", some "i64", some { isPrimaryKey := true }, false⟩,
      ⟨"rating", some "Option<f46>", some {}, false⟩] }

/-- The misspelled authors with their books. -/
def misspelledDeclarations : Declarations where
  providers := libraryDeclarations.providers
  models :=
    [misspelledAuthor,
      { name := "Book", packagePath := some "crate::library", table := some "books", provider := some "library",
        foreignKeys := [⟨"author_id", "authors", "id"⟩],
        members := [⟨"id", some "i64", some { isPrimaryKey := true }, false⟩,
          ⟨"author_id", some "i64", some {}, false⟩] }]

/-- The key of the books is reported although the table of the authors is
declared: these were left out, which is an error by itself. -/
theorem missing_target_iff_misspelled :
    extract misspelledDeclarations = .error
        [.unsupportedType "Author" "rating" "Option<f46>", .unresolvedForeignKey "Book" "authors"] ∧
      misspelledAuthor.Maps misspelledDeclarations.models "library" "authors" ∧
      misspelledAuthor.IsLeftOut misspelledDeclarations ∧
      .unsupportedType "Author" "rating" "Option<f46>" ∈
        (Extraction.buildModel (Extraction.contextOf misspelledDeclarations) misspelledAuthor).errors := by
  have hrefused : extract misspelledDeclarations = .error
      [.unsupportedType "Author" "rating" "Option<f46>", .unresolvedForeignKey "Book" "authors"] := by
    decide +kernel
  obtain ⟨hreported, hbesides⟩ := missing_target_iff hrefused
  obtain ⟨m, hm, built, hname, hconcrete, -, hbuilt, -, hall⟩ := (hreported "Book" "authors").1 (by decide)
  have hstated : ∀ m ∈ misspelledDeclarations.models, m.provider = some "library" := by decide
  have hprovider : built.provider.name = "library" := by
    obtain hown | ⟨hnone, -⟩ := (Extraction.maps_of_buildModel hm hconcrete hbuilt).names
    · exact Option.some.inj (hown.symm.trans (hstated m hm))
    · rw [hstated m hm] at hnone
      cases hnone
  have hmaps : misspelledAuthor.Maps misspelledDeclarations.models "library" "authors" :=
    ⟨List.mem_cons_self, rfl, .own rfl, rfl⟩
  have hleft := hall _ (hprovider ▸ hmaps)
  obtain ⟨e, he, hown, hwhere⟩ := hbesides _ hmaps.isDeclared rfl hleft
  refine ⟨hrefused, hmaps, hleft, ?_⟩
  -- of the two errors only the first one does not speak of a target
  obtain rfl : e = .unsupportedType "Author" "rating" "Option<f46>" := by
    rcases List.mem_cons.1 he with rfl | he
    · rfl
    · rw [List.mem_singleton.1 he] at hown
      cases hown
  rcases hwhere with hbuild | hother | hother
  · exact hbuild
  · cases hother
  · cases hother

end TypedTables

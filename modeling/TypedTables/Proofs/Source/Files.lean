import TypedTables.Proofs.Source.Reading
/-!
# TypedTables — every model is generated once

Names of files and of modules are folded, so different names may meet; what is
extracted has none that do. There is one file for each provider with models,
and one module for each of its models, in the order of their names. The lines
of a header below its first are not marked: the modules that they open are in
the file too.
-/

namespace TypedTables

open SourceReader (modules opened?)

/-- The lines of a file below the text of its header. -/
def SourceFile.linesBelow (f : SourceFile) (o : GeneratorOptions) : List String :=
  (Text.lines f.contents).drop (o.laterLines.length + 1)

/-- The modules that some lines open, each with the names that it imports. -/
def SourceReader.contents (ls : List String) : List (String × List String) :=
  (modules ls).map fun s => (s.name, s.imports)

/-- What the modules of some models are. -/
def Model.modules (ms : List Model) : List (String × List String) :=
  ms.map fun m => (Naming.moduleName m.name, [m.name])

/-- **The file of some models**: below its header it has one module for each, in
the order of their names. It has no other modules if the header opens none. -/
structure SourceFile.Lists (f : SourceFile) (ms : List Model) (o : GeneratorOptions) : Prop where
  lines_eq : Text.lines f.contents = ("// " ++ o.firstLine) :: (o.laterLines ++ f.linesBelow o)
  models_areSorted : ms.Pairwise fun m n => compare m.name n.name = .lt
  modules_below : SourceReader.contents (f.linesBelow o) = Model.modules ms
  modules_nodup : ((Model.modules ms).map Prod.fst).Nodup
  /-- The modules of the header come before those of the models. -/
  names_eq : (modules (Text.lines f.contents)).map (·.name) =
    (modules o.laterLines).map (·.name) ++ (Model.modules ms).map Prod.fst
  modules_iff : SourceReader.contents (Text.lines f.contents) = Model.modules ms ↔ modules o.laterLines = []

namespace SourceReader

/-- Where no module is found, no line opens one. -/
theorem opened?_of_modules {ls : List String} (h : modules ls = []) : ∀ l ∈ ls, opened? l = none := by
  induction ls with
  | nil => exact List.forall_mem_nil _
  | cons l ls ih =>
    obtain ⟨hl, hls⟩ := List.append_eq_nil_iff.1 h
    refine List.forall_mem_cons.2 ⟨?_, ih hls⟩
    rw [Option.toList_eq_nil_iff, Option.map_eq_none_iff] at hl
    exact hl

end SourceReader

namespace SourceFile

variable {f : SourceFile} {o : GeneratorOptions}

/-- The first line of a header opens no module, and all others may. -/
theorem modules_of_lines (h : Text.lines f.contents = ("// " ++ o.firstLine) :: (o.laterLines ++ f.linesBelow o)) :
    modules (Text.lines f.contents) = modules (o.laterLines ++ f.linesBelow o) := by
  have hfirst : opened? ("// " ++ o.firstLine) = none := (SourceReader.isSilent_append _ (by decide)).opened
  rw [h, modules, hfirst]
  rfl

theorem names_of_lines (h : Text.lines f.contents = ("// " ++ o.firstLine) :: (o.laterLines ++ f.linesBelow o)) :
    (modules (Text.lines f.contents)).map (·.name) =
      (modules o.laterLines).map (·.name) ++ (SourceReader.contents (f.linesBelow o)).map Prod.fst := by
  rw [modules_of_lines h, SourceReader.names_modules_append, SourceReader.contents, List.map_map]
  rfl

/-- **All modules of a file are below its header** just if the header opens none. -/
theorem contents_of_lines (h : Text.lines f.contents = ("// " ++ o.firstLine) :: (o.laterLines ++ f.linesBelow o)) :
    SourceReader.contents (Text.lines f.contents) = SourceReader.contents (f.linesBelow o) ↔
      modules o.laterLines = [] := by
  constructor
  · -- the modules of the header would be more than those below it
    intro hall
    have hcount := congrArg List.length hall
    have hnames := congrArg List.length (names_of_lines h)
    simp only [SourceReader.contents, List.length_append, List.length_map] at hcount hnames
    exact List.eq_nil_of_length_eq_zero (by omega)
  · intro hnone
    have hopened := SourceReader.opened?_of_modules hnone
    rw [SourceReader.contents, modules_of_lines h, SourceReader.modules_append hopened, SourceReader.contents]

end SourceFile

namespace Registry

variable {r : Registry}

/-- A model is known by its name. -/
theorem IsSound.eq_of_name (hs : r.IsSound) {m n : Model} (hm : m ∈ r.models.values) (hn : n ∈ r.models.values)
    (h : m.name = n.name) : m = n := by
  obtain ⟨a, ha, rfl⟩ := List.mem_map.1 hm
  obtain ⟨b, hb, rfl⟩ := List.mem_map.1 hn
  obtain ⟨hname, hfound⟩ := hs.model_isFiled a ha
  obtain ⟨hname', hfound'⟩ := hs.model_isFiled b hb
  rw [hname, h, ← hname', hfound'] at hfound
  exact (Option.some.inj hfound).symm

/-- **Models of one provider have modules of their own.** -/
theorem IsSound.nodup_modules (hs : r.IsSound) (provider : String) :
    ((Model.modules (r.modelsOf provider)).map Prod.fst).Nodup := by
  rw [Model.modules, List.map_map]
  refine List.pairwise_map.2 ?_
  refine (List.Pairwise.filter _ (List.pairwise_map.1 hs.modules_nodup)).imp_of_mem fun {m n} hm hn hne he => hne ?_
  simp only [Function.comp_apply] at he
  rw [(mem_modelsOf.1 hm).2, (mem_modelsOf.1 hn).2, he]

end Registry

namespace Source

variable {r : Registry} {o : GeneratorOptions} {f : SourceFile}

theorem providers_generate (r : Registry) (o : GeneratorOptions) :
    (generate r o).map (·.provider) =
      (r.providers.values.map (·.name)).filter fun name => r.modelsOf name ≠ [] := by
  rw [generate_eq, List.map_map, List.filter_map]
  rfl

/-- No two files are of one provider. -/
theorem nodup_providers_generate (hn : r.IsNamed) : ((generate r o).map (·.provider)).Nodup := by
  rw [providers_generate]
  exact (Registry.nodup_providers hn).filter _

/-- **No two files have one name**, as providers that would have one name
between them do not both have models. -/
theorem nodup_names_generate (hs : r.IsSound) (hn : r.IsNamed) : ((generate r o).map (·.name)).Nodup := by
  refine List.pairwise_map.2 ((List.pairwise_map.1 (nodup_providers_generate (o := o) hn)).imp_of_mem ?_)
  intro f g hf hg hne he
  obtain ⟨p, -, hp, rfl⟩ := mem_generate.1 hf
  obtain ⟨q, -, hq, rfl⟩ := mem_generate.1 hg
  obtain ⟨m, hm⟩ := List.exists_mem_of_ne_nil _ hp
  obtain ⟨n, hmn⟩ := List.exists_mem_of_ne_nil _ hq
  obtain ⟨hm, hmp⟩ := Registry.mem_modelsOf.1 hm
  obtain ⟨hmn, hnq⟩ := Registry.mem_modelsOf.1 hmn
  have hown := hs.file_isOwn m hm n hmn (by rw [hmp, hnq]; exact he)
  exact hne (by rw [hmp, hnq] at hown; exact hown)

/-- **What stands below the header of a file.** -/
theorem linesBelow_fileOf (hs : r.IsSound) (hn : r.IsNamed) {p : Provider} (hp : p ∈ r.providers.values)
    (o : GeneratorOptions) : (fileOf r p o).linesBelow o = markLines p (r.modelsOf p.name) o ++
      providerLine :: (schemaLines p (r.modelsOf p.name) o ++ moduleLines (r.modelsOf p.name) o) := by
  have hfile := lines_renderFile (hn.provider_isValid p hp) (isSpelled_of_mem_modelsOf hs hn p.name) o
  rw [SourceFile.linesBelow, fileOf, hfile, List.drop_succ_cons, List.drop_left]

/-- **Each file is that of the models of its provider.** -/
theorem lists_of_mem_generate (hs : r.IsSound) (hn : r.IsNamed) (hf : f ∈ generate r o) :
    f.Lists (r.modelsOf f.provider) o := by
  obtain ⟨p, hp, -, rfl⟩ := mem_generate.1 hf
  have hms := isSpelled_of_mem_modelsOf hs hn p.name
  have hfile := lines_renderFile (hn.provider_isValid p hp) hms o
  have hdrop := linesBelow_fileOf hs hn hp o
  have hlines : Text.lines (fileOf r p o).contents =
      ("// " ++ o.firstLine) :: (o.laterLines ++ (fileOf r p o).linesBelow o) := by
    rw [hdrop]
    exact hfile
  have hbelow : SourceReader.contents ((fileOf r p o).linesBelow o) = Model.modules (r.modelsOf p.name) := by
    rw [hdrop, SourceReader.contents, modules_below hms o, List.map_map, Model.modules]
    refine List.map_congr_left fun m hm => ?_
    rw [Function.comp_apply, SourceModule.imports, imports_moduleBody (hms m hm) o]
  have hnames := SourceFile.names_of_lines hlines
  have hcontents := SourceFile.contents_of_lines hlines
  rw [hbelow] at hnames hcontents
  exact ⟨hlines, Registry.pairwise_modelsOf hs p.name, hbelow, hs.nodup_modules p.name, hnames, hcontents⟩

/-- **Every model is in one file.** -/
theorem existsUnique_file (hs : r.IsSound) (hn : r.IsNamed) (o : GeneratorOptions) {m : Model}
    (hm : m ∈ r.models.values) :
    ∃! f, f ∈ generate r o ∧ (Naming.moduleName m.name, [m.name]) ∈ SourceReader.contents (f.linesBelow o) := by
  obtain ⟨p, hp, hname⟩ := Registry.exists_provider hs hm
  have hmem : m ∈ r.modelsOf p.name := Registry.mem_modelsOf.2 ⟨hm, hname.symm⟩
  have hf : fileOf r p o ∈ generate r o := mem_generate.2 ⟨p, hp, List.ne_nil_of_mem hmem, rfl⟩
  refine ⟨fileOf r p o, ⟨hf, ?_⟩, ?_⟩
  · rw [(lists_of_mem_generate hs hn hf).modules_below]
    exact List.mem_map_of_mem hmem
  · rintro g ⟨hg, hmodule⟩
    rw [(lists_of_mem_generate hs hn hg).modules_below] at hmodule
    obtain ⟨n, hmn, he⟩ := List.mem_map.1 hmodule
    obtain ⟨hmn, hprovider⟩ := Registry.mem_modelsOf.1 hmn
    obtain rfl := hs.eq_of_name hmn hm (List.singleton_inj.1 (congrArg Prod.snd he))
    exact List.inj_on_of_nodup_map (nodup_providers_generate hn) hg hf (hprovider.symm.trans hname.symm)

end Source

/-- **Every model is generated once, and nothing overwrites anything.** There
is one file for each provider with models, no two files have one name, each
file lists the models of its provider, and every model is in one file. Modules
that are in a file besides come from the header. -/
theorem every_model_is_generated_once {d : Declarations} {r : Registry} (h : extract d = .ok r)
    (o : GeneratorOptions) :
    (Source.generate r o).map (·.provider) =
        (r.providers.values.map (·.name)).filter (fun name => r.modelsOf name ≠ []) ∧
      ((Source.generate r o).map (·.provider)).Nodup ∧ ((Source.generate r o).map (·.name)).Nodup ∧
      (∀ f ∈ Source.generate r o, f.Lists (r.modelsOf f.provider) o) ∧
      ∀ m ∈ r.models.values, ∃! f, f ∈ Source.generate r o ∧
        (Naming.moduleName m.name, [m.name]) ∈ SourceReader.contents (f.linesBelow o) := by
  have hs := isSound_of_extract h
  have hn := isNamed_of_extract h
  exact ⟨Source.providers_generate r o, Source.nodup_providers_generate hn, Source.nodup_names_generate hs hn,
    fun _ hf => Source.lists_of_mem_generate hs hn hf, fun _ hm => Source.existsUnique_file hs hn o hm⟩

/-- A header that opens a module, which is called like that of the books. -/
def moduleHeader : GeneratorOptions where
  header := "Library models\npub mod book \x7b\n    use crate::library::Book;\n\x7d"

/-- The module of the header stands before those of the models, one of which is
called like it. -/
theorem every_model_is_generated_once_library : ∃ r, extract libraryDeclarations = .ok r ∧
    ∃ f ∈ Source.generate r moduleHeader,
      SourceReader.contents (f.linesBelow moduleHeader) = [("author", ["Author"]), ("book", ["Book"])] ∧
      (modules (Text.lines f.contents)).map (·.name) = ["book", "author", "book"] := by
  have hok := extract_of_errors_eq_nil
    (show (Extraction.findings libraryDeclarations).errors = [] by decide +kernel)
  obtain ⟨hproviders, -, -, hfiles, -⟩ := every_model_is_generated_once hok moduleHeader
  have hlater : (modules moduleHeader.laterLines).map (·.name) = ["book"] := by decide +kernel
  obtain ⟨hlibrary, hmodels⟩ : "library" ∈ ((Extraction.register (Extraction.findings libraryDeclarations).result.1
        (Extraction.findings libraryDeclarations).result.2).providers.values.map (·.name)).filter
          (fun name => (Extraction.register (Extraction.findings libraryDeclarations).result.1
            (Extraction.findings libraryDeclarations).result.2).modelsOf name ≠ []) ∧
      Model.modules ((Extraction.register (Extraction.findings libraryDeclarations).result.1
        (Extraction.findings libraryDeclarations).result.2).modelsOf "library") =
        [("author", ["Author"]), ("book", ["Book"])] := by
    decide +kernel
  rw [← hproviders] at hlibrary
  obtain ⟨f, hf, hname⟩ := List.mem_map.1 hlibrary
  have hlists := hfiles f hf
  have hbelow := hlists.modules_below
  have hnames := hlists.names_eq
  rw [hname, hmodels] at hbelow hnames
  rw [hlater] at hnames
  exact ⟨_, hok, f, hf, hbelow, hnames⟩

end TypedTables

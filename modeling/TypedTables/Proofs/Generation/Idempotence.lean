import TypedTables.Proofs.Document.Json.RoundTrip
import TypedTables.Proofs.Files.Disk
import TypedTables.Proofs.Source.Files
/-!
# TypedTables — generating twice

Everything is read before anything is written, and nothing that is read is
written: declarations are not called like generated files. So a second run reads
what the first one read, finds its own files, and leaves them alone; and a run
that stops while it reads has not touched the disk.
-/

namespace TypedTables

/-! ## Reading declarations -/

/-- The format in which declarations are read from a path. -/
def DocumentFormat.ofPath? (path : String) : Option DocumentFormat :=
  (Path.extension? path).bind DocumentFormat.ofExtension?

/-- Disks with the same declarations in some files. -/
def Disk.Agree (paths : List String) (s s' : Disk) : Prop :=
  ∀ path ∈ paths, DocumentFormat.ofPath? path ≠ none → s.file? (.of path) = s'.file? (.of path)

variable {α β : Type} {paths : List String} {path : String} {s s' : Disk}

theorem load_eq {format : DocumentFormat} (h : DocumentFormat.ofPath? path = some format) :
    Declarations.load (m := StateM Disk) path = readDocument format Declarations.decoder path := by
  rw [DocumentFormat.ofPath?] at h
  rw [Declarations.load, h]

/-- **An operation that only reads**, and of some files only their declarations. -/
structure ReadsOnly (paths : List String) (op : GenerationT (StateM Disk) α) : Prop where
  disk_eq : ∀ s, (op.run s).2 = s
  answer_eq : ∀ s s', Disk.Agree paths s s' → (op.run s).1 = (op.run s').1

namespace ReadsOnly

theorem pure (a : α) : ReadsOnly paths (Pure.pure a : GenerationT (StateM Disk) α) := ⟨fun _ => rfl, fun _ _ _ => rfl⟩

theorem throw (e : GenerationError) : ReadsOnly paths (MonadExcept.throw e : GenerationT (StateM Disk) α) :=
  ⟨fun _ => rfl, fun _ _ _ => rfl⟩

/-- One reading after the other. -/
theorem bind {op : GenerationT (StateM Disk) α} {f : α → GenerationT (StateM Disk) β} (h : ReadsOnly paths op)
    (hf : ∀ a, ReadsOnly paths (f a)) : ReadsOnly paths (op >>= f) := by
  have hrun (s : Disk) : (op >>= f).run s = match (op.run s).1 with
      | .ok a => (f a).run s
      | .error e => (.error e, s) := by
    have hop : op.run s = ((op.run s).1, s) := Prod.ext rfl (h.disk_eq s)
    rw [run_bind_state, hop]
    rcases (op.run s).1 with e | a <;> rfl
  constructor
  · intro s
    rw [hrun]
    rcases (op.run s).1 with e | a
    · rfl
    · exact (hf a).disk_eq s
  · intro s s' hagree
    rw [hrun, hrun, ← h.answer_eq s s' hagree]
    rcases (op.run s).1 with e | a
    · rfl
    · exact (hf a).answer_eq s s' hagree

/-- The text of a file that may hold declarations. -/
theorem readText (hpath : path ∈ paths) (hformat : DocumentFormat.ofPath? path ≠ none) :
    ReadsOnly paths (liftM (Files.readText path : StateM Disk (Except FileFault String)) :
      GenerationT (StateM Disk) (Except FileFault String)) := by
  refine ⟨fun _ => rfl, fun s s' hagree => ?_⟩
  have hsame : s.readText path = s'.readText path := by rw [Disk.readText, Disk.readText, hagree path hpath hformat]
  exact congrArg Except.ok hsame

theorem readDocument {format : DocumentFormat} {decode : Decoder α} (hpath : path ∈ paths)
    (hformat : DocumentFormat.ofPath? path ≠ none) :
    ReadsOnly paths (TypedTables.readDocument (m := StateM Disk) format decode path) := by
  refine (readText hpath hformat).bind fun answer => ?_
  rcases answer with fault | text
  · cases fault <;> exact throw _
  · simp only
    rcases (format.parse? text).bind (decode format) with _ | a
    · exact throw _
    · exact pure a

theorem load (hpath : path ∈ paths) : ReadsOnly paths (Declarations.load (m := StateM Disk) path) := by
  rcases hformat : DocumentFormat.ofPath? path with _ | format
  · have hload : Declarations.load (m := StateM Disk) path = MonadExcept.throw (.unsupportedFormat path) := by
      rw [DocumentFormat.ofPath?] at hformat
      rw [Declarations.load, hformat]
    rw [hload]
    exact throw _
  · rw [load_eq hformat]
    exact readDocument hpath (by simp [hformat])

theorem loadEach {read : List String} (hread : ∀ path ∈ read, path ∈ paths) :
    ReadsOnly paths (Declarations.loadEach (m := StateM Disk) read) := by
  induction read with
  | nil => exact pure _
  | cons path read ih =>
    obtain ⟨hpath, hread⟩ := List.forall_mem_cons.1 hread
    exact (load hpath).bind fun first => (ih hread).bind fun rest => pure _

/-- **Declarations are loaded without touching the disk.** -/
theorem registry (paths : List String) : ReadsOnly paths (Registry.load (m := StateM Disk) paths) := by
  refine ReadsOnly.bind ((loadEach fun _ hpath => hpath).bind fun _ => pure _) fun d => ?_
  rcases extract d with errors | registry
  · exact throw _
  · exact pure registry

end ReadsOnly

/-- A file with a text that can be decoded is loaded. -/
theorem run_load {format : DocumentFormat} {text : String} {d : Declarations}
    (hformat : DocumentFormat.ofPath? path = some format) (hread : s.readText path = .ok text)
    (hdecode : (format.parse? text).bind (Declarations.decoder format) = some d) :
    (Declarations.load (m := StateM Disk) path).run s = (.ok d, s) := by
  have htext : (liftM (Files.readText path : StateM Disk (Except FileFault String)) :
      GenerationT (StateM Disk) (Except FileFault String)).run s = (.ok (.ok text), s) := by
    rw [← hread]
    rfl
  rw [load_eq hformat, readDocument, run_bind_state, htext]
  simp only [hdecode]
  rfl

/-- Files are loaded one after the other, up to the first that is refused. -/
theorem run_loadEach_cons (path : String) (paths : List String) (s : Disk) :
    (Declarations.loadEach (m := StateM Disk) (path :: paths)).run s =
      match (Declarations.load (m := StateM Disk) path).run s with
      | (.ok d, s') =>
        match (Declarations.loadEach (m := StateM Disk) paths).run s' with
        | (.ok ds, s'') => (.ok (d :: ds), s'')
        | (.error e, s'') => (.error e, s'')
      | (.error e, s') => (.error e, s') := by
  rw [Declarations.loadEach, run_bind_state]
  rcases (Declarations.load (m := StateM Disk) path).run s with ⟨_ | d, s'⟩
  · rfl
  · simp only [run_bind_state]
    rcases (Declarations.loadEach (m := StateM Disk) paths).run s' with ⟨_ | ds, s''⟩ <;> rfl

theorem run_loadAll {ds : List Declarations}
    (h : (Declarations.loadEach (m := StateM Disk) paths).run s = (.ok ds, s')) :
    (Declarations.loadAll (m := StateM Disk) paths).run s = (.ok (Declarations.mergeAll ds), s') := by
  rw [Declarations.loadAll, run_bind_state, h]
  rfl

/-- Declarations that are loaded and accepted make the registry. -/
theorem run_registryLoad {d : Declarations} {r : Registry}
    (hload : (Declarations.loadAll (m := StateM Disk) paths).run s = (.ok d, s')) (hok : extract d = .ok r) :
    (Registry.load (m := StateM Disk) paths).run s = (.ok r, s') := by
  rw [Registry.load, run_bind_state, hload]
  simp only [hok]
  rfl

theorem run_registryLoad_error {e : GenerationError}
    (h : (Declarations.loadEach (m := StateM Disk) paths).run s = (.error e, s')) :
    (Registry.load (m := StateM Disk) paths).run s = (.error e, s') := by
  rw [Registry.load, run_bind_state, Declarations.loadAll, run_bind_state, h]

/-- What is loaded was extracted. -/
theorem exists_extract_of_load {r : Registry} (h : ((Registry.load (m := StateM Disk) paths).run s).1 = .ok r) :
    ∃ d, extract d = .ok r := by
  rw [Registry.load, run_bind_state] at h
  split at h
  case h_2 => cases h
  case h_1 d _ _ =>
    refine ⟨d, ?_⟩
    rcases hextract : extract d with errors | registry <;> rw [hextract] at h <;> cases h
    rfl

/-! ## Generated files in a folder -/

/-- A file that is called like sources are. -/
def SourceFile.IsSource (f : SourceFile) : Prop := ∃ stem, Identifier.IsWord stem ∧ f.name = stem ++ ".rs"

namespace SourceFile

variable {f g : SourceFile} {folder : String} {files : List SourceFile} {file? : Path.Route → Option ByteArray}

/-- Everything that is generated is called like a source. -/
theorem isSource_of_mem_generate {r : Registry} {o : GeneratorOptions} (hn : r.IsNamed)
    (hf : f ∈ Source.generate r o) : f.IsSource := by
  obtain ⟨p, hp, -, rfl⟩ := Source.mem_generate.1 hf
  exact ⟨_, Naming.isWord_snakeCase (Identifier.isWord_of_isValid (hn.provider_isValid p hp)), rfl⟩

/-- A source is the file of its folder that has its name. -/
theorem IsSource.fileName?_pathIn (h : f.IsSource) : Path.fileName? (f.pathIn folder) = some f.name := by
  obtain ⟨stem, hstem, hname⟩ := h
  have hlast : f.name.toList.getLast? = some 's' := by
    rw [hname, String.toList_append]
    exact List.getLast?_append_of_ne_nil _ (by decide)
  refine Path.fileName?_join ?_ ?_ ?_
  · rw [hname, String.toList_append, List.mem_append, not_or]
    exact ⟨fun hslash => absurd (hstem _ hslash) (by decide), by decide⟩
  · have hempty : f.name ≠ "" := fun he => by simp [he] at hlast
    have hdot : f.name ≠ "." := fun he => by simp [he] at hlast
    simp [Path.isStep, hempty, hdot]
  · intro he
    simp [he] at hlast

/-- **No source is read as declarations.** -/
theorem IsSource.ofPath?_pathIn (h : f.IsSource) : DocumentFormat.ofPath? (f.pathIn folder) = none := by
  rw [DocumentFormat.ofPath?, Path.extension?, h.fileName?_pathIn]
  obtain ⟨stem, -, hname⟩ := h
  have hreverse : f.name.toList.reverse = 's' :: 'r' :: '.' :: stem.toList.reverse := by
    rw [hname, String.toList_append, List.reverse_append]
    rfl
  have hextension : Path.extensionOf? f.name = none ∨ Path.extensionOf? f.name = some "rs" := by
    rw [Path.extensionOf?, hreverse]
    rcases stem.toList.reverse with _ | ⟨c, cs⟩
    · exact .inl rfl
    · exact .inr rfl
  rw [Option.bind_some]
  rcases hextension with hnone | hsource
  · rw [hnone]
    rfl
  · rw [hsource]
    rfl

/-- Sources of different names go to different places. -/
theorem nodup_routes (h : ∀ f ∈ files, f.IsSource) (hnames : (files.map (·.name)).Nodup) (folder : String) :
    (files.map (·.routeIn folder)).Nodup := by
  refine List.pairwise_map.2 ((List.pairwise_map.1 hnames).imp_of_mem ?_)
  intro f g hf hg hne he
  have hname := Path.fileName?_of_route he
  rw [(h f hf).fileName?_pathIn, (h g hg).fileName?_pathIn] at hname
  exact hne (Option.some.inj hname)

/-- **Files that go to different places are all there in the end.** -/
theorem isHeld_laid (hroutes : (files.map (·.routeIn folder)).Nodup) :
    ∀ f ∈ files, f.isHeld folder (laid folder file? files) = true := by
  induction files using List.reverseRecOn with
  | nil => exact List.forall_mem_nil _
  | append_singleton files g ih =>
    rw [List.map_append, List.map_singleton] at hroutes
    obtain ⟨hfiles, -, hnew⟩ := List.nodup_append.1 hroutes
    intro f hf
    rw [isHeld_iff, laid_concat]
    rcases List.mem_append.1 hf with hf | hf
    · -- the last file goes elsewhere
      have hne : f.routeIn folder ≠ g.routeIn folder := hnew _ (List.mem_map_of_mem hf) _ List.mem_cons_self
      rw [Function.update_of_ne hne]
      exact isHeld_iff.1 (ih hfiles f hf)
    · rw [List.mem_singleton.1 hf, Function.update_self]

/-- Files that are there already make no difference. -/
theorem laid_eq_self (hheld : ∀ f ∈ files, f.isHeld folder file? = true) : laid folder file? files = file? := by
  induction files using List.reverseRecOn with
  | nil => rfl
  | append_singleton files g ih =>
    obtain ⟨hfiles, hg⟩ := List.forall_mem_append.1 hheld
    have hlast : file? (g.routeIn folder) = some g.contents.toUTF8 := isHeld_iff.1 (hg g List.mem_cons_self)
    rw [laid_concat, ih hfiles, ← hlast, Function.update_eq_self]

/-- Files that are there already are all left alone. -/
theorem reportOf_of_held (hheld : ∀ f ∈ files, f.isHeld folder file? = true) :
    reportOf folder file? files = ⟨[], files.map (·.pathIn folder)⟩ := by
  induction files using List.reverseRecOn with
  | nil => rfl
  | append_singleton files g ih =>
    obtain ⟨hfiles, hg⟩ := List.forall_mem_append.1 hheld
    have hlast : g.isHeld folder (laid folder file? files) = true := by
      rw [laid_eq_self hfiles]
      exact hg g List.mem_cons_self
    rw [reportOf_concat, if_pos hlast, ih hfiles, List.map_append]
    rfl

end SourceFile

/-! ## One run and another -/

open SourceFile

/-- **A run reads, and then it writes.** -/
theorem run_generateTo (folder : String) (declarations : List String) (o : GeneratorOptions) (s : Disk) :
    (generateTo (m := StateM Disk) folder declarations o).run s =
      match ((Registry.load (m := StateM Disk) declarations).run s).1 with
      | .ok r => (writeAll (m := StateM Disk) folder (Source.generate r o)).run s
      | .error e => (.error e, s) := by
  have hload : (Registry.load (m := StateM Disk) declarations).run s =
      (((Registry.load (m := StateM Disk) declarations).run s).1, s) :=
    Prod.ext rfl ((ReadsOnly.registry declarations).disk_eq s)
  rw [generateTo, run_bind_state, hload]
  rcases ((Registry.load (m := StateM Disk) declarations).run s).1 with e | r <;> rfl

/-- Writing files leaves what can be read as declarations as it was, if the files
are sources. -/
theorem agree_after {files : List SourceFile} (h : ∀ f ∈ files, f.IsSource) (folder : String)
    (declarations : List String) (s : Disk) : Disk.Agree declarations s (s.after folder files) := by
  intro path _ hformat
  refine ((holds_after folder s files).rest_isKept (.of path) fun hmem => hformat ?_).symm
  -- what is written to is called like a source, and has no format
  obtain ⟨f, hf, hroute⟩ := List.mem_map.1 hmem
  have hextension : Path.extension? (f.pathIn folder) = Path.extension? path := Path.extension?_of_route hroute
  rw [DocumentFormat.ofPath?, ← hextension]
  exact (h f hf).ofPath?_pathIn

/-- Files that go to different places are all left alone when they are written
again. -/
theorem run_writeAll_again {files : List SourceFile} {folder : String}
    (hroutes : (files.map (·.routeIn folder)).Nodup) (s : Disk) :
    (writeAll (m := StateM Disk) folder files).run (s.after folder files) =
      (.ok ⟨[], files.map (·.pathIn folder)⟩, s.after folder files) := by
  have hheld : ∀ f ∈ files, f.isHeld folder (s.after folder files).file? = true := by
    rw [file?_after]
    exact isHeld_laid hroutes
  have hfolders : (s.after folder files).folders ∪ (Path.Route.of folder).upTo = (s.after folder files).folders := by
    rw [(holds_after folder s files).folders_eq, Set.union_assoc, Set.union_self]
  rw [run_writeAll, reportOf_of_held hheld, laid_eq_self hheld, hfolders]

/-- **A second run finds what the first one left.** -/
theorem run_generateTo_after (folder : String) {declarations : List String} (o : GeneratorOptions) {s : Disk}
    {r : Registry} (hs : r.IsSound) (hn : r.IsNamed)
    (hload : ((Registry.load (m := StateM Disk) declarations).run s).1 = .ok r) :
    (generateTo (m := StateM Disk) folder declarations o).run
        (s.after folder (Source.generate r o)) =
      (.ok ⟨[], (Source.generate r o).map (·.pathIn folder)⟩, s.after folder (Source.generate r o)) := by
  have hsources : ∀ f ∈ Source.generate r o, f.IsSource := fun _ => isSource_of_mem_generate hn
  have hroutes := nodup_routes hsources (Source.nodup_names_generate hs hn) folder
  have hagain : ((Registry.load (m := StateM Disk) declarations).run (s.after folder (Source.generate r o))).1 =
      .ok r := by
    rw [← (ReadsOnly.registry declarations).answer_eq s _ (agree_after hsources folder declarations s), hload]
  rw [run_generateTo, hagain]
  exact run_writeAll_again hroutes s

/-- **Writing generated files is idempotent and touches nothing else.** Files that
are written are there, all else is as it was, and the report tells which of them
were there before. Whatever declarations are accepted, a second run finds all its
files and leaves the disk as it is; and where they are not read or not accepted,
the disk is not touched. -/
theorem generating_is_idempotent (folder : String) (s : Disk) :
    (∀ files : List SourceFile, ∃ report,
      (writeAll (m := StateM Disk) folder files).run s = (.ok report, s.after folder files) ∧
        (s.after folder files).Holds folder files s ∧ report.Tells folder s files) ∧
    ∀ (declarations : List String) (o : GeneratorOptions),
      (∀ r, ((Registry.load (m := StateM Disk) declarations).run s).1 = .ok r → ∃ report,
        (generateTo (m := StateM Disk) folder declarations o).run s =
          (.ok report, s.after folder (Source.generate r o)) ∧
        (generateTo (m := StateM Disk) folder declarations o).run
            (s.after folder (Source.generate r o)) =
          (.ok ⟨[], (Source.generate r o).map (·.pathIn folder)⟩, s.after folder (Source.generate r o))) ∧
      ∀ e, ((Registry.load (m := StateM Disk) declarations).run s).1 = .error e →
        (generateTo (m := StateM Disk) folder declarations o).run s = (.error e, s) := by
  refine ⟨fun files => ?_, fun declarations o => ⟨fun r hload => ?_, fun e hload => ?_⟩⟩
  · exact ⟨_, run_writeAll_after folder s files, holds_after folder s files, tells_reportOf folder s files⟩
  · have hrun : (generateTo (m := StateM Disk) folder declarations o).run s =
        (writeAll (m := StateM Disk) folder (Source.generate r o)).run s := by
      rw [run_generateTo, hload]
    obtain ⟨d, hextract⟩ := exists_extract_of_load hload
    have hagain := run_generateTo_after folder o (isSound_of_extract hextract) (isNamed_of_extract hextract) hload
    exact ⟨_, hrun.trans (run_writeAll_after folder s _), hagain⟩
  · rw [run_generateTo, hload]

/-- Tags, as they are declared. -/
def tagDeclarations : Declarations where
  providers := [⟨"desk", ProviderKind.localRoot, none, none⟩]
  models :=
    [{ name := "Tag", packagePath := some "crate::desk", provider := some "desk",
        members := [⟨"id", some "i64", some { isPrimaryKey := true }, false⟩] }]

/-- The declarations of tags as a document. -/
def tagDocument : Document :=
  .map
    [("providers", .list [.map [("name", .text "desk"), ("extends", .text "LocalDatabaseProvider")]]),
      ("models", .list [.map [("name", .text "Tag"), ("package", .text "crate::desk"), ("provider", .text "desk"),
        ("members", .list [.map [("name", .text "id"), ("type", .text "i64"),
          ("field", .map [("primary_key", .bool true)])]])]])]

/-- The declarations of tags in a file. -/
def tagText : String := Json.compact tagDocument

/-- A disk with the declarations of tags, and with bytes in the way of what is
generated of them. -/
def tagDisk : Disk where
  file? r :=
    if r = .of "tags.json" then some tagText.toUTF8
    else if r = .of "out/desk.rs" then some ⟨#[0xff]⟩ else none
  folders := ∅

/-- The first run writes over the bytes that were there, and the second one leaves
the disk alone. Without the declarations the disk is left alone as well. -/
theorem generating_is_idempotent_tags : ∃ report s',
    (generateTo (m := StateM Disk) "out" ["tags.json"] {}).run tagDisk = (.ok report, s') ∧
      (generateTo (m := StateM Disk) "out" ["tags.json"] {}).run s' = (.ok ⟨[], ["out/desk.rs"]⟩, s') ∧
      (generateTo (m := StateM Disk) "out" ["tags.json", "notes.json"] {}).run tagDisk =
        (.error (.file .notFound), tagDisk) := by
  have hformat : DocumentFormat.ofPath? "tags.json" = some .json := by decide +kernel
  have hparse : DocumentFormat.json.parse? tagText = some tagDocument :=
    Json.parse?_compact (by simp [tagDocument])
  have hdecoded : (DocumentFormat.json.parse? tagText).bind (Declarations.decoder .json) = some tagDeclarations := by
    rw [hparse]
    decide +kernel
  have htags : (Declarations.load (m := StateM Disk) "tags.json").run tagDisk = (.ok tagDeclarations, tagDisk) :=
    run_load hformat (Disk.readText_eq_ok_iff.2 rfl) hdecoded
  have hnotes : (Declarations.load (m := StateM Disk) "notes.json").run tagDisk =
      (.error (.file .notFound), tagDisk) := by
    rfl
  have hok := extract_of_errors_eq_nil (show (Extraction.findings tagDeclarations).errors = [] by decide +kernel)
  have heach : (Declarations.loadEach (m := StateM Disk) ["tags.json"]).run tagDisk =
      (.ok [tagDeclarations], tagDisk) := by
    rw [run_loadEach_cons, htags]
    rfl
  have hall : (Declarations.loadAll (m := StateM Disk) ["tags.json"]).run tagDisk = (.ok tagDeclarations, tagDisk) :=
    run_loadAll heach
  have hload := run_registryLoad hall hok
  have hstops : (Declarations.loadEach (m := StateM Disk) ["tags.json", "notes.json"]).run tagDisk =
      (.error (.file .notFound), tagDisk) := by
    rw [run_loadEach_cons, htags]
    simp only [run_loadEach_cons, hnotes]
  have hmissing := run_registryLoad_error hstops
  obtain ⟨-, hruns⟩ := generating_is_idempotent "out" tagDisk
  obtain ⟨report, hfirst, hsecond⟩ := (hruns ["tags.json"] {}).1 _ (congrArg Prod.fst hload)
  have hpaths : (Source.generate (Extraction.register (Extraction.findings tagDeclarations).result.1
      (Extraction.findings tagDeclarations).result.2) {}).map (·.pathIn "out") = ["out/desk.rs"] := by
    decide +kernel
  rw [hpaths] at hsecond
  exact ⟨report, _, hfirst, hsecond, (hruns _ {}).2 _ (congrArg Prod.fst hmissing)⟩

end TypedTables

import TypedTables.Proofs.Source.File
/-!
# TypedTables — generated files read back

What the reader finds in the lines of a generated file. Below the header every
module is found once, with the model that it is for; in it, and in front of
the modules, every constant is found where it was put, and nowhere else.
-/

namespace TypedTables

namespace Source

open Code (IsPlain)
open Identifier (IsWord isWord_ofList)
open SourceReader (IsSilent declared? opened? imported? modules declarations)

variable {m : Model} {ms : List Model} {p : Provider} {o : GeneratorOptions} {name : String} {l : String}

/-! ## Lines that declare something else -/

/-- **Whether a line does not declare a constant of a name.** -/
def DeclaresOther (name l : String) : Prop := ∀ rest, declared? l ≠ some (name, rest)

theorem DeclaresOther.of_none (h : declared? l = none) : DeclaresOther name l := by
  intro rest
  rw [h]
  exact (Option.some_ne_none _).symm

theorem DeclaresOther.of_isSilent (h : IsSilent l) : DeclaresOther name l := .of_none h.declared

theorem DeclaresOther.of_declared? {other : String} {rest : List Char} (h : declared? l = some (other, rest))
    (hne : other ≠ name) : DeclaresOther name l := by
  intro after
  rw [h]
  exact fun he => hne (congrArg Prod.fst (Option.some.inj he))

/-- A word has no colon in it. -/
theorem colon_notMem (h : IsWord name) : ':' ∉ name.toList := fun hc => absurd (h _ hc) (by decide)

theorem declared?_textLine (hname : IsWord name) (value : String) : declared? (textLine name value) =
    some (name, ": &str = ".toList ++ ((Text.quoted value).toList ++ [';'])) :=
  SourceReader.declared?_text value (colon_notMem hname)

theorem declared?_codeLine (hname : IsWord name) (type value : String) : declared? (codeLine name type value) =
    some (name, ": ".toList ++ (type.toList ++ (" = ".toList ++ (value.toList ++ [';'])))) :=
  SourceReader.declared?_constant type value (colon_notMem hname)

/-! ## Steps that say nothing -/

/-- The lines of a block say nothing if its head does not. -/
theorem isSilent_of_mem_block {head : String} {body : Code} (hbody : ∀ step ∈ body, IsPlain step)
    (hhead : IsSilent (head ++ " \x7b")) : ∀ l ∈ (Code.runStep 0 (.block head body)).1, IsSilent l := by
  intro l hl
  have hlines := Code.lines_block head hbody
  rw [Code.lines, Code.run_cons, Code.run_nil, List.append_nil] at hlines
  rw [hlines] at hl
  simp only [List.mem_cons, List.mem_append, List.mem_map, List.not_mem_nil, or_false] at hl
  rcases hl with rfl | ⟨t, -, rfl⟩ | rfl
  · exact hhead
  · exact SourceReader.isSilent_indentLine t
  · exact SourceReader.isSilent_brace

theorem isSilent_of_mem_implStep (hm : m.IsSpelled) : ∀ l ∈ (Code.runStep 0 (implStep m)).1, IsSilent l := by
  obtain ⟨-, hbody⟩ := Code.isPlain_block.1 (isPlain_implStep hm)
  refine isSilent_of_mem_block hbody ?_
  simp only [String.append_assoc]
  exact SourceReader.isSilent_append _ (by decide)

theorem isSilent_of_mem_entryPointStep (hm : m.IsSpelled) {entry : String × String} (hentry : entry ∈ entryPoints) :
    ∀ l ∈ (Code.runStep 0 (entryPointStep m.name entry)).1, IsSilent l := by
  obtain ⟨-, hbody⟩ := Code.isPlain_block.1 (isPlain_entryPointStep hm.isSound hentry)
  refine isSilent_of_mem_block hbody ?_
  simp only [String.append_assoc]
  exact SourceReader.isSilent_append _ (by decide)

/-! ## The body of a module -/

/-- The constant of the key, as a line. -/
def keyLine (m : Model) : String :=
  match keyConstant? m with
  | some name => codeLine "PRIMARY_KEY" "&str" name
  | none => textLine "PRIMARY_KEY" ""

/-- The constants of a module in front of those that create its table. -/
def frontLines (m : Model) : List String :=
  textLine "TABLE_NAME" m.tableName :: ((namedFields m).map (fun (f, name) => textLine name f.columnName) ++
    [keyLine m,
      codeLine "COLUMNS" "&[&str]" ("&[" ++ String.intercalate ", " (Naming.columnConstants m.fields) ++ "]")])

/-- What stands behind the constants of a module. -/
def codeLines (m : Model) (o : GeneratorOptions) : List String :=
  "" :: (Code.runStep 0 (implStep m)).1 ++
    if o.emitEntryPoints then
      entryPoints.flatMap fun entry => "" :: (Code.runStep 0 (entryPointStep m.name entry)).1
    else []

theorem constantSteps_eq (m : Model) (o : GeneratorOptions) : constantSteps m o =
    (frontLines m ++ [textLine "CREATE_TABLE" (m.createTable o.ddl),
      codeLine "CREATE_INDEXES" "&[&str]" (literalList (m.createIndexes o.ddl))]).map .line := by
  unfold constantSteps frontLines keyLine
  rcases keyConstant? m with _ | name <;>
    · simp only [List.map_append, List.map_cons, List.map_nil, List.map_map, List.append_assoc, List.cons_append,
        List.nil_append]
      rfl

/-- Entry points have blank lines before them. -/
theorem lines_entryPoints (model : String) : (spaced (entryPoints.map (entryPointStep model))).flatMap
    (fun step => (Code.runStep 0 step).1) =
      entryPoints.flatMap fun entry => "" :: (Code.runStep 0 (entryPointStep model entry)).1 := by
  rw [spaced, List.flatMap_map, List.flatMap_assoc]
  refine List.flatMap_congr fun entry _ => ?_
  rw [List.flatMap_cons, List.flatMap_singleton]
  rfl

theorem lines_moduleBody (hm : m.IsSpelled) (o : GeneratorOptions) : Code.lines (moduleBody m o) =
    ("use " ++ m.packagePath ++ "::" ++ m.name ++ ";") :: "" :: (frontLines m ++
      textLine "CREATE_TABLE" (m.createTable o.ddl) ::
        codeLine "CREATE_INDEXES" "&[&str]" (literalList (m.createIndexes o.ddl)) :: codeLines m o) := by
  have hconstants : (constantSteps m o).flatMap (fun step => (Code.runStep 0 step).1) = frontLines m ++
      [textLine "CREATE_TABLE" (m.createTable o.ddl),
        codeLine "CREATE_INDEXES" "&[&str]" (literalList (m.createIndexes o.ddl))] := by
    rw [← Code.run_fst (isPlain_constantSteps hm.isSound o), constantSteps_eq, Code.run_lines]
  have hentries : (if o.emitEntryPoints then spaced (entryPoints.map (entryPointStep m.name)) else []).flatMap
      (fun step => (Code.runStep 0 step).1) = if o.emitEntryPoints then
        entryPoints.flatMap fun entry => "" :: (Code.runStep 0 (entryPointStep m.name entry)).1 else [] := by
    split
    · exact lines_entryPoints m.name
    · rfl
  rw [Code.lines, Code.run_fst (isPlain_moduleBody hm o), moduleBody]
  simp only [List.flatMap_append, List.flatMap_cons, hconstants, hentries, codeLines, Code.runStep,
    Code.indentLine_zero, List.append_assoc, List.cons_append, List.nil_append]

theorem opened?_textLine (name value : String) :
    opened? (textLine name value) = none ∧ imported? (textLine name value) = none := by
  unfold textLine
  simp only [String.append_assoc]
  exact SourceReader.opened?_constant _

theorem opened?_codeLine (name type value : String) :
    opened? (codeLine name type value) = none ∧ imported? (codeLine name type value) = none := by
  unfold codeLine
  simp only [String.append_assoc]
  exact SourceReader.opened?_constant _

theorem imported?_of_mem_frontLines (hl : l ∈ frontLines m) : imported? l = none := by
  simp only [frontLines, List.mem_cons, List.mem_append, List.mem_map, List.not_mem_nil, or_false] at hl
  rcases hl with rfl | ⟨q, -, rfl⟩ | rfl | rfl
  · exact (opened?_textLine _ _).2
  · exact (opened?_textLine _ _).2
  · unfold keyLine
    split
    · exact (opened?_codeLine _ _ _).2
    · exact (opened?_textLine _ _).2
  · exact (opened?_codeLine _ _ _).2

/-- No constant in front, not even one of a column, is called like those that
create the table. -/
theorem declaresOther_of_mem_frontLines (hm : m.IsSound) (hname : name = "CREATE_TABLE" ∨ name = "CREATE_INDEXES")
    (hl : l ∈ frontLines m) : DeclaresOther name l := by
  have hother : ∀ n ∈ ["TABLE_NAME", "PRIMARY_KEY", "COLUMNS"], IsWord n ∧ n ≠ name := by
    rcases hname with rfl | rfl <;> decide +kernel
  have hreserved : name ∈ Naming.reservedConstants := by
    rcases hname with rfl | rfl <;> decide +kernel
  simp only [List.forall_mem_cons] at hother
  obtain ⟨⟨htable, htable'⟩, ⟨hkey, hkey'⟩, ⟨hcolumns, hcolumns'⟩, -⟩ := hother
  simp only [frontLines, List.mem_cons, List.mem_append, List.mem_map, List.not_mem_nil, or_false] at hl
  rcases hl with rfl | ⟨q, hq, rfl⟩ | rfl | rfl
  · exact .of_declared? (declared?_textLine htable _) htable'
  · have hnames : ∀ f ∈ m.fields, Identifier.isValid f.name = true := fun f hf =>
      (hm.fields_areSound f hf).name_isValid
    obtain ⟨hword, hnew⟩ := Naming.isWord_of_mem_columnConstants hnames q.2 (List.of_mem_zip hq).2
    exact .of_declared? (declared?_textLine hword _) fun he => hnew (he ▸ hreserved)
  · unfold keyLine
    split
    · exact .of_declared? (declared?_codeLine hkey _ _) hkey'
    · exact .of_declared? (declared?_textLine hkey _) hkey'
  · exact .of_declared? (declared?_codeLine hcolumns _ _) hcolumns'

/-- Behind the constants nothing is said any more. -/
theorem isSilent_of_mem_codeLines (hm : m.IsSpelled) (hl : l ∈ codeLines m o) : IsSilent l := by
  simp only [codeLines, List.mem_cons, List.mem_append] at hl
  rcases hl with (rfl | hl) | hl
  · exact SourceReader.isSilent_blank
  · exact isSilent_of_mem_implStep hm l hl
  · split at hl
    · obtain ⟨entry, hentry, hl⟩ := List.mem_flatMap.1 hl
      rcases List.mem_cons.1 hl with rfl | hl
      · exact SourceReader.isSilent_blank
      · exact isSilent_of_mem_entryPointStep hm hentry l hl
    · cases hl

/-- The line that imports the model declares nothing. -/
theorem declaresOther_use (t : String) : DeclaresOther name ("use " ++ t) := by
  refine .of_none ?_
  rw [declared?, String.toList_append, SourceReader.dropPrefix?_eq_none (by decide +kernel), Option.map_none]

/-- **A module imports the model that it is for**, and nothing else. -/
theorem imports_moduleBody (hm : m.IsSpelled) (o : GeneratorOptions) :
    (Code.lines (moduleBody m o)).filterMap imported? = [m.name] := by
  have huse := SourceReader.imported?_use m.packagePath
    (colon_notMem (Identifier.isWord_of_isValid hm.isSound.name_isValid))
  have hrest : ∀ l ∈ "" :: (frontLines m ++ textLine "CREATE_TABLE" (m.createTable o.ddl) ::
      codeLine "CREATE_INDEXES" "&[&str]" (literalList (m.createIndexes o.ddl)) :: codeLines m o),
      imported? l = none := by
    simp only [List.mem_cons, List.mem_append]
    rintro l (rfl | hl | rfl | rfl | hl)
    · exact SourceReader.isSilent_blank.imported
    · exact imported?_of_mem_frontLines hl
    · exact (opened?_textLine _ _).2
    · exact (opened?_codeLine _ _ _).2
    · exact (isSilent_of_mem_codeLines hm hl).imported
  rw [lines_moduleBody hm o, List.filterMap_cons_some huse, List.filterMap_eq_nil_iff.2 hrest]

/-- What a constant with a list of texts is read as. -/
theorem texts?_codeLine (items : List String) (rest : List Char) :
    SourceReader.texts? (": ".toList ++ ("&[&str]".toList ++ (" = ".toList ++ ((literalList items).toList ++ [';']))) ++
      rest) = some items := by
  have hstart : ": &[&str] = &[".toList = ": ".toList ++ ("&[&str]".toList ++ (" = ".toList ++ "&[".toList)) := by
    decide +kernel
  have hend : "]".toList = [']'] := rfl
  have htexts := SourceReader.texts?_literalList items rest
  rw [hstart] at htexts
  rw [literalList, String.toList_append, String.toList_append, hend]
  simpa only [List.append_assoc, List.cons_append, List.nil_append] using htexts

/-- **The statements of a model are read from its module**, each where one
constant holds it. -/
theorem constants_moduleBody (hm : m.IsSpelled) (o : GeneratorOptions) :
    SourceReader.textConstants "CREATE_TABLE" (Code.lines (moduleBody m o)) = [some (m.createTable o.ddl)] ∧
      SourceReader.listConstants "CREATE_INDEXES" (Code.lines (moduleBody m o)) = [some (m.createIndexes o.ddl)] := by
  have htable := declared?_textLine (show IsWord "CREATE_TABLE" from isWord_ofList (by decide)) (m.createTable o.ddl)
  have hindexes := declared?_codeLine (show IsWord "CREATE_INDEXES" from isWord_ofList (by decide)) "&[&str]"
    (literalList (m.createIndexes o.ddl))
  have hfront : ∀ name, name = "CREATE_TABLE" ∨ name = "CREATE_INDEXES" →
      ∀ l ∈ ("use " ++ m.packagePath ++ "::" ++ m.name ++ ";") :: "" :: frontLines m, DeclaresOther name l := by
    intro name hname
    refine List.forall_mem_cons.2 ⟨?_, List.forall_mem_cons.2
      ⟨.of_isSilent SourceReader.isSilent_blank, fun l hl => ?_⟩⟩
    · simp only [String.append_assoc]
      exact declaresOther_use _
    · exact declaresOther_of_mem_frontLines hm.isSound hname hl
  have hback : ∀ name, ∀ l ∈ codeLines m o, DeclaresOther name l := fun name l hl =>
    .of_isSilent (isSilent_of_mem_codeLines hm hl)
  rw [lines_moduleBody hm o, SourceReader.textConstants, SourceReader.listConstants, ← List.cons_append,
    ← List.cons_append]
  -- of the two constants each is read from its own line, and the other has another name
  constructor
  · rw [SourceReader.declarations_eq (hfront _ (.inl rfl)) htable
      (List.forall_mem_cons.2 ⟨DeclaresOther.of_declared? hindexes (by decide +kernel), hback _⟩)]
    have hvalue := SourceReader.text?_quoted (m.createTable o.ddl)
    simp only [List.map_cons, List.map_nil, List.append_assoc, List.cons_append, List.nil_append, hvalue]
  · rw [List.append_cons, SourceReader.declarations_eq (fun l hl => ?_) hindexes (hback _)]
    · simp only [List.map_cons, List.map_nil, texts?_codeLine]
    · rcases List.mem_append.1 hl with hl | hl
      · exact hfront _ (.inr rfl) l hl
      · rw [List.mem_singleton.1 hl]
        exact DeclaresOther.of_declared? htable (by decide +kernel)

/-! ## The file -/

/-- **The modules of a file are read as they were written**, by induction on
the models. -/
theorem modules_moduleLines (hms : ∀ m ∈ ms, m.IsSpelled) (o : GeneratorOptions) :
    modules (moduleLines ms o) = ms.map fun m => ⟨Naming.moduleName m.name, Code.lines (moduleBody m o)⟩ := by
  induction ms with
  | nil => rfl
  | cons m ms ih =>
    have hcomment : IsSilent ("/// Table \x60" ++ m.tableName ++ "\x60 for \x60" ++ m.name ++ "\x60.") := by
      simp only [String.append_assoc]
      exact SourceReader.isSilent_append _ (by decide)
    have hlines : moduleLines (m :: ms) o =
        ["", "/// Table \x60" ++ m.tableName ++ "\x60 for \x60" ++ m.name ++ "\x60."] ++
          ("pub mod " ++ Naming.moduleName m.name ++ " \x7b") ::
            ((Code.lines (moduleBody m o)).map (Code.indentLine 1) ++ "\x7d" :: moduleLines ms o) := by
      simp [moduleLines, lines_moduleSteps (hms m List.mem_cons_self) o]
    rw [hlines, SourceReader.modules_append, SourceReader.modules_module,
      ih fun n hn => hms n (List.mem_cons_of_mem m hn), List.map_cons]
    exact List.forall_mem_cons.2 ⟨SourceReader.isSilent_blank.opened, List.forall_mem_cons.2 ⟨hcomment.opened,
      List.forall_mem_nil _⟩⟩

/-- The lines of the header that do not come from the options are comments. -/
theorem isSilent_of_mem_markLines (hl : l ∈ markLines p ms o) : IsSilent l := by
  simp only [markLines, List.mem_cons, List.not_mem_nil, or_false] at hl
  rcases hl with rfl | rfl | rfl
  · simp only [String.append_assoc]
    exact SourceReader.isSilent_append _ (by decide)
  · exact SourceReader.isSilent_append _ (by decide)
  · exact SourceReader.isSilent_blank

theorem isSilent_providerLine : IsSilent providerLine :=
  SourceReader.isSilent_ofList (by decide)

theorem opened?_of_mem_schemaLines (hl : l ∈ schemaLines p ms o) : opened? l = none := by
  simp only [schemaLines, List.mem_cons, List.mem_append, List.mem_map, List.not_mem_nil, or_false] at hl
  rcases hl with rfl | (⟨a, -, rfl⟩ | rfl | rfl | rfl | rfl) | ⟨s, -, rfl⟩ | rfl
  · exact (opened?_textLine _ _).1
  · exact (opened?_textLine _ _).1
  · exact (SourceReader.isSilent_ofList (by decide)).opened
  · exact (opened?_codeLine _ _ _).1
  · exact (SourceReader.isSilent_ofList (by decide)).opened
  · decide +kernel
  · exact (SourceReader.isSilent_indentLine _).opened
  · exact (SourceReader.isSilent_ofList (by decide)).opened

/-- **Below the header a file has its models' modules and no others.** -/
theorem modules_below (hms : ∀ m ∈ ms, m.IsSpelled) (o : GeneratorOptions) :
    modules (markLines p ms o ++ providerLine :: (schemaLines p ms o ++ moduleLines ms o)) =
      ms.map fun m => ⟨Naming.moduleName m.name, Code.lines (moduleBody m o)⟩ := by
  rw [SourceReader.modules_append fun l hl => (isSilent_of_mem_markLines hl).opened, ← List.cons_append,
    SourceReader.modules_append, modules_moduleLines hms o]
  exact List.forall_mem_cons.2 ⟨isSilent_providerLine.opened, fun l hl => opened?_of_mem_schemaLines hl⟩

/-- The lines of the modules declare nothing for the file. -/
theorem declaresOther_of_mem_moduleLines (hms : ∀ m ∈ ms, m.IsSpelled) (hl : l ∈ moduleLines ms o) :
    DeclaresOther name l := by
  obtain ⟨m, hm, hl⟩ := List.mem_flatMap.1 hl
  rw [lines_moduleSteps (hms m hm) o] at hl
  simp only [List.mem_cons, List.mem_append, List.mem_map, List.not_mem_nil, or_false] at hl
  rcases hl with rfl | rfl | rfl | ⟨t, -, rfl⟩ | rfl
  · exact .of_isSilent SourceReader.isSilent_blank
  · simp only [String.append_assoc]
    exact .of_isSilent (SourceReader.isSilent_append _ (by decide))
  · refine .of_none ?_
    rw [declared?, String.append_assoc, String.toList_append, SourceReader.dropPrefix?_eq_none (by decide +kernel),
      Option.map_none]
  · exact .of_isSilent (SourceReader.isSilent_indentLine t)
  · exact .of_isSilent SourceReader.isSilent_brace

/-- The lines in front of the names of the tables. -/
def openingLines (p : Provider) (ms : List Model) (o : GeneratorOptions) : List String :=
  ("// " ++ o.firstLine) :: (markLines p ms o ++ providerLine :: textLine "PROVIDER" p.name ::
    ((authority? p).toList.map (textLine "AUTHORITY") ++ ["/// Tables in creation order."]))

theorem declaresOther_of_mem_openingLines (hname : name ≠ "PROVIDER" ∧ name ≠ "AUTHORITY")
    (hl : l ∈ openingLines p ms o) : DeclaresOther name l := by
  simp only [openingLines, List.mem_cons, List.mem_append, List.mem_map, List.not_mem_nil, or_false] at hl
  rcases hl with rfl | hl | rfl | rfl | ⟨a, -, rfl⟩ | rfl
  · exact .of_isSilent (SourceReader.isSilent_append _ (by decide))
  · exact .of_isSilent (isSilent_of_mem_markLines hl)
  · exact .of_isSilent isSilent_providerLine
  · exact .of_declared? (declared?_textLine (isWord_ofList (by decide)) _) hname.1.symm
  · exact .of_declared? (declared?_textLine (isWord_ofList (by decide)) _) hname.2.symm
  · exact .of_isSilent (SourceReader.isSilent_ofList (by decide))

/-- The lines behind the one that opens the list of the statements. -/
def closingLines (ms : List Model) (o : GeneratorOptions) : List String :=
  (schemaStatements ms o.ddl).map (fun s => Code.indentLine 1 (Text.quoted s ++ ",")) ++
    "];" :: moduleLines ms o

theorem declaresOther_of_mem_closingLines (hms : ∀ m ∈ ms, m.IsSpelled) (hl : l ∈ closingLines ms o) :
    DeclaresOther name l := by
  simp only [closingLines, List.mem_append, List.mem_map, List.mem_cons] at hl
  rcases hl with ⟨s, -, rfl⟩ | rfl | hl
  · exact .of_isSilent (SourceReader.isSilent_indentLine _)
  · exact .of_isSilent (SourceReader.isSilent_ofList (by decide))
  · exact declaresOther_of_mem_moduleLines hms hl

/-- The comment between the two constants of a schema. -/
def statementsLine : String := "/// \x60CREATE TABLE\x60 statements in creation order, then \x60CREATE INDEX\x60."

/-- Where the header is one line, the two constants of the schema divide the file. -/
theorem lines_of_laterLines (hp : Identifier.isValid p.name = true) (hms : ∀ m ∈ ms, m.IsSpelled)
    (ho : o.laterLines = []) : Text.lines (renderFile p ms o).contents = openingLines p ms o ++
      codeLine "TABLE_NAMES" "&[&str]" (literalList (tableNames ms)) ::
        statementsLine :: "pub const SCHEMA: &[&str] = &[" :: closingLines ms o := by
  rw [lines_renderFile hp hms o, ho]
  simp only [openingLines, schemaLines, closingLines, statementsLine, List.nil_append, List.cons_append,
    List.append_assoc]

/-- **The schema of a provider is read from its file**: each of its two
constants is there once, if the header has no more lines. -/
theorem constants_file (hp : Identifier.isValid p.name = true) (hms : ∀ m ∈ ms, m.IsSpelled)
    (ho : o.laterLines = []) :
    SourceReader.listConstants "TABLE_NAMES" (Text.lines (renderFile p ms o).contents) =
        [some (tableNames ms)] ∧
      SourceReader.listConstants "SCHEMA" (Text.lines (renderFile p ms o).contents) =
        [some (schemaStatements ms o.ddl)] := by
  have hcomment : IsSilent statementsLine := SourceReader.isSilent_ofList (by decide)
  have htables := declared?_codeLine (show IsWord "TABLE_NAMES" from isWord_ofList (by decide)) "&[&str]"
    (literalList (tableNames ms))
  have hschema : declared? "pub const SCHEMA: &[&str] = &[" = some ("SCHEMA", ": &[&str] = &[".toList) := by
    decide +kernel
  have hclosing : ∀ name, ∀ l ∈ closingLines ms o, DeclaresOther name l := fun name l hl =>
    declaresOther_of_mem_closingLines hms hl
  rw [lines_of_laterLines hp hms ho, SourceReader.listConstants, SourceReader.listConstants]
  constructor
  · rw [SourceReader.declarations_eq (fun l hl => declaresOther_of_mem_openingLines (by decide) hl) htables]
    · simp only [List.map_cons, List.map_nil, texts?_codeLine]
    · exact List.forall_mem_cons.2 ⟨DeclaresOther.of_isSilent hcomment, List.forall_mem_cons.2
        ⟨DeclaresOther.of_declared? hschema (by decide), hclosing _⟩⟩
  · rw [List.append_cons, List.append_cons, SourceReader.declarations_eq (fun l hl => ?_) hschema (hclosing _)]
    · simp only [List.map_cons, List.map_nil, closingLines, SourceReader.texts?_lines]
    · simp only [List.mem_append, List.mem_cons, List.not_mem_nil, or_false] at hl
      rcases hl with (hl | rfl) | rfl
      · exact declaresOther_of_mem_openingLines (by decide) hl
      · exact DeclaresOther.of_declared? htables (by decide)
      · exact DeclaresOther.of_isSilent hcomment

/-! ## All files -/

variable {r : Registry} {f : SourceFile}

/-- The file of a provider of a registry. -/
def fileOf (r : Registry) (p : Provider) (o : GeneratorOptions) : SourceFile := renderFile p (r.modelsOf p.name) o

/-- **There is a file for each provider that has models**, in their order. -/
theorem generate_eq (r : Registry) (o : GeneratorOptions) :
    generate r o = (r.providers.values.filter fun p => r.modelsOf p.name ≠ []).map fun p => fileOf r p o := by
  unfold generate fileOf
  induction r.providers.values with
  | nil => rfl
  | cons p ps ih =>
    rw [List.filterMap_cons, ih, List.filter_cons]
    rcases hms : r.modelsOf p.name with _ | ⟨m, ms⟩
    · rw [if_neg (by decide)]
    · rw [if_pos (decide_eq_true (List.cons_ne_nil m ms)), List.map_cons, hms]

theorem mem_generate : f ∈ generate r o ↔ ∃ p ∈ r.providers.values, r.modelsOf p.name ≠ [] ∧ f = fileOf r p o := by
  rw [generate_eq, List.mem_map]
  refine exists_congr fun p => ?_
  rw [List.mem_filter, decide_eq_true_eq, and_assoc, eq_comm (b := f)]

/-- The models of a sound registry can be spelled. -/
theorem isSpelled_of_mem_modelsOf (hs : r.IsSound) (hn : r.IsNamed) (provider : String) :
    ∀ m ∈ r.modelsOf provider, m.IsSpelled := by
  intro m hm
  have hvalue := (Registry.mem_modelsOf.1 hm).1
  exact ⟨hs.models_areSound m hvalue, hn.hook_isValid m hvalue⟩

end Source

end TypedTables

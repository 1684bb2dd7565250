import Mathlib.Data.List.Forall2
import TypedTables.Proofs.Schema.Readback
import TypedTables.Proofs.Source.Reading
import TypedTables.Schema.Plan
/-!
# TypedTables — the generated schema is the plan

A migration plan is made from models, and so are the constants of a generated
file, each in its own way. Read back as literals, the constants hold what the
plan has: no declared text, in whatever default it stands, changes on its way
through the quotes of SQL, the quotes of the code, and the lines.
-/

namespace TypedTables

open SourceReader (listConstants textConstants modules)

/-- Whether a module is that of a model, with the statements that create its
table and its indexes. -/
structure SourceModule.Creates (s : SourceModule) (m : Model) (o : DdlOptions) : Prop where
  name : s.name = Naming.moduleName m.name
  imports : s.imports = [m.name]
  createTable : textConstants "CREATE_TABLE" s.body = [some (m.createTable o)]
  createIndexes : listConstants "CREATE_INDEXES" s.body = [some (m.createIndexes o)]

/-- **The plan has what the file lists**: both put tables and statements in the
same order. -/
theorem SchemaPlan.ofModels_eq (ms : List Model) (o : DdlOptions) : SchemaPlan.ofModels ms o =
    { tables := Source.tableNames ms, statements := Source.schemaStatements ms o } := rfl

/-- **The generated schema is the plan of the migration.** The file of a
provider with models lists the tables and the statements of the plan for these
models, in the same order and in one constant each; and it has one module for
each model, with the statements for that model. The header is taken to be one
line, as all its lines but the first would be code. -/
theorem generated_schema_is_plan {d : Declarations} {r : Registry} (h : extract d = .ok r) {o : GeneratorOptions}
    (ho : '\n' ∉ o.header.toList) {p : Provider} (hp : p ∈ r.providers.values) (hne : r.modelsOf p.name ≠ []) :
    Source.fileOf r p o ∈ Source.generate r o ∧
      listConstants "TABLE_NAMES" (Text.lines (Source.fileOf r p o).contents) =
        [some (SchemaPlan.ofModels (r.modelsOf p.name) o.ddl).tables] ∧
      listConstants "SCHEMA" (Text.lines (Source.fileOf r p o).contents) =
        [some (SchemaPlan.ofModels (r.modelsOf p.name) o.ddl).statements] ∧
      List.Forall₂ (fun m s => SourceModule.Creates s m o.ddl) (r.modelsOf p.name)
        (modules (Text.lines (Source.fileOf r p o).contents)) := by
  have hs := isSound_of_extract h
  have hn := isNamed_of_extract h
  have hvalid := hn.provider_isValid p hp
  have hms := Source.isSpelled_of_mem_modelsOf hs hn p.name
  have hlater := GeneratorOptions.laterLines_eq_nil ho
  obtain ⟨htables, hstatements⟩ := Source.constants_file hvalid hms hlater
  rw [SchemaPlan.ofModels_eq]
  refine ⟨Source.mem_generate.2 ⟨p, hp, hne, rfl⟩, htables, hstatements, ?_⟩
  have hfirst : SourceReader.opened? ("// " ++ o.firstLine) = none :=
    (SourceReader.isSilent_append _ (by decide)).opened
  have hmodules : modules (Text.lines (Source.fileOf r p o).contents) = (r.modelsOf p.name).map fun m =>
      ⟨Naming.moduleName m.name, Code.lines (Source.moduleBody m o)⟩ := by
    rw [Source.fileOf, Source.lines_renderFile hvalid hms o, hlater, List.nil_append, modules, hfirst,
      Source.modules_below hms o]
    rfl
  rw [hmodules, List.forall₂_map_right_iff, List.forall₂_same]
  intro m hm
  obtain ⟨htable, hindexes⟩ := Source.constants_moduleBody (hms m hm) o
  exact ⟨rfl, Source.imports_moduleBody (hms m hm) o, htable, hindexes⟩

/-- The letters are created after the orders, and the text of their default
comes through. -/
theorem generated_schema_is_plan_letter : ∃ r p, extract letterDeclarations = .ok r ∧
    '\n' ∉ defaultHeader.toList ∧ p ∈ r.providers.values ∧ r.modelsOf p.name ≠ [] ∧
    listConstants "TABLE_NAMES" (Text.lines (Source.fileOf r p {}).contents) = [some ["order", "letters"]] ∧
    listConstants "SCHEMA" (Text.lines (Source.fileOf r p {}).contents) = [some
      ["CREATE TABLE IF NOT EXISTS order (id INTEGER PRIMARY KEY)",
        "CREATE TABLE IF NOT EXISTS letters (id INTEGER PRIMARY KEY AUTOINCREMENT, body TEXT NOT NULL DEFAULT " ++
          "\x27it\x27\x27s), UNIQUE (\x27\x27\x00\x27\x27) --\x27, weight REAL UNIQUE DEFAULT -1, order_id INTEGER, " ++
          "FOREIGN KEY (order_id) REFERENCES order(id), UNIQUE (body, order_id))"]] := by
  have hok := extract_of_errors_eq_nil
    (show (Extraction.findings letterDeclarations).errors = [] by decide +kernel)
  have hheader : '\n' ∉ defaultHeader.toList := by decide +kernel
  obtain ⟨p, hp, hne, htables, hstatements⟩ : ∃ p ∈ (Extraction.register
      (Extraction.findings letterDeclarations).result.1
      (Extraction.findings letterDeclarations).result.2).providers.values,
      (Extraction.register (Extraction.findings letterDeclarations).result.1
        (Extraction.findings letterDeclarations).result.2).modelsOf p.name ≠ [] ∧
      (SchemaPlan.ofModels ((Extraction.register (Extraction.findings letterDeclarations).result.1
        (Extraction.findings letterDeclarations).result.2).modelsOf p.name)
          ({} : GeneratorOptions).ddl).tables = ["order", "letters"] ∧
      (SchemaPlan.ofModels ((Extraction.register (Extraction.findings letterDeclarations).result.1
        (Extraction.findings letterDeclarations).result.2).modelsOf p.name)
          ({} : GeneratorOptions).ddl).statements =
        ["CREATE TABLE IF NOT EXISTS order (id INTEGER PRIMARY KEY)",
          "CREATE TABLE IF NOT EXISTS letters (id INTEGER PRIMARY KEY AUTOINCREMENT, body TEXT NOT NULL DEFAULT " ++
            "\x27it\x27\x27s), UNIQUE (\x27\x27\x00\x27\x27) --\x27, weight REAL UNIQUE DEFAULT -1, order_id INTEGER, " ++
            "FOREIGN KEY (order_id) REFERENCES order(id), UNIQUE (body, order_id))"] := by
    decide +kernel
  obtain ⟨-, hnames, hschema, -⟩ := generated_schema_is_plan hok (o := {}) hheader hp hne
  rw [htables] at hnames
  rw [hstatements] at hschema
  exact ⟨_, p, hok, hheader, hp, hne, hnames, hschema⟩

end TypedTables

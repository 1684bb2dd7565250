import TypedTables.Proofs.Extraction.Names
import TypedTables.Proofs.Source.Module
import TypedTables.Proofs.Source.Reader
import TypedTables.Source.File
/-!
# TypedTables — lines of generated files

A generated file has the lines of its header, the lines of its provider and
those of its modules, in this order. Only the header is text that may break:
its first line stands behind a comment mark, and all others stand as they are.
-/

namespace TypedTables

open Text (IsLine isLine_append isLine_ofList)

namespace GeneratorOptions

variable {o : GeneratorOptions}

/-- The first line of the header. -/
def firstLine (o : GeneratorOptions) : String := (Text.lines (o.header ++ "\n")).headD ""

/-- **The lines of the header behind the first**, before which no mark is put. -/
def laterLines (o : GeneratorOptions) : List String := (Text.lines (o.header ++ "\n")).tail

/-- **The mark stands before the first line of the header** and before no other. -/
theorem lines_header (o : GeneratorOptions) :
    Text.lines ("// " ++ o.header ++ "\n") = ("// " ++ o.firstLine) :: o.laterLines := by
  have hbreak : "\n".toList = ['\n'] := rfl
  have hmark : "// ".toList = ['/', '/', ' '] := rfl
  have hown := Text.linesFrom_taken [] o.header.toList
  have hmarked : Text.linesFrom [] ("// ".toList ++ (o.header.toList ++ ['\n'])) =
      ("// ".toList ++ Text.dropReturn (o.header.toList.takeWhile (· != '\n'))) ::
        (Text.linesFrom [] (o.header.toList ++ ['\n'])).tail := by
    rw [← Text.dropReturn_append (by decide), hmark]
    exact Text.linesFrom_taken [' ', '/', '/'] o.header.toList
  have hfirst : o.firstLine = String.ofList (Text.dropReturn (o.header.toList.takeWhile (· != '\n'))) := by
    rw [firstLine, Text.lines, String.toList_append, hbreak, hown]
    rfl
  rw [Text.lines, String.toList_append, String.toList_append, hbreak, List.append_assoc, hmarked, hfirst, laterLines,
    Text.lines, String.toList_append, hbreak, List.map_cons, String.ofList_append, String.ofList_toList, List.map_tail]

/-- A header without a break has one line. -/
theorem laterLines_eq_nil (h : '\n' ∉ o.header.toList) : o.laterLines = [] := by
  have hbreak : "\n".toList = ['\n'] := rfl
  rw [laterLines, Text.lines, String.toList_append, hbreak, Text.linesFrom_of_notMem h]
  rfl

end GeneratorOptions

namespace Code

variable {α : Type}

/-- Lines stand one after the other at their level. -/
theorem run_map_line (level : Nat) (text : α → String) (xs : List α) :
    run level (xs.map fun x => .line (text x)) = (xs.map fun x => indentLine level (text x), level) := by
  induction xs with
  | nil => rfl
  | cons x xs ih =>
    rw [List.map_cons, run_cons]
    simp only [runStep, ih, List.map_cons, List.singleton_append]

/-- At the outermost level they stand as they are. -/
theorem run_lines (ls : List String) : run 0 (ls.map .line) = (ls, 0) := by
  rw [run_map_line 0 (fun l => l), List.map_id'' indentLine_zero]

end Code

namespace Source

variable {p : Provider} {ms : List Model} {o : GeneratorOptions}

/-- The lines behind the header. -/
def markLines (p : Provider) (ms : List Model) (o : GeneratorOptions) : List String :=
  ["// provider: " ++ p.name ++ " (" ++ p.kind.name ++ ")", "// fingerprint: sha256:" ++ fingerprint p ms o, ""]

/-- The line that documents the constant with the name of the provider. -/
def providerLine : String := "/// Provider these models are bound to."

/-- The authority of a provider, where one is generated. -/
def authority? (p : Provider) : Option String :=
  match p.kind with
  | .content => p.authority
  | .local => none

/-- The lines of the provider's constants behind the documented one. -/
def schemaLines (p : Provider) (ms : List Model) (o : GeneratorOptions) : List String :=
  textLine "PROVIDER" p.name :: ((authority? p).toList.map (textLine "AUTHORITY") ++
    ["/// Tables in creation order.",
      codeLine "TABLE_NAMES" "&[&str]" (literalList (tableNames ms)),
      "/// \x60CREATE TABLE\x60 statements in creation order, then \x60CREATE INDEX\x60.",
      "pub const SCHEMA: &[&str] = &["] ++
    ((schemaStatements ms o.ddl).map (fun s => Code.indentLine 1 (Text.quoted s ++ ",")) ++ ["];"]))

/-- The lines of the modules, with a blank line before each. -/
def moduleLines (ms : List Model) (o : GeneratorOptions) : List String :=
  ms.flatMap fun m => "" :: Code.lines (moduleSteps m o)

theorem providerSteps_eq (p : Provider) (ms : List Model) (o : GeneratorOptions) : providerSteps p ms o =
    (providerLine :: textLine "PROVIDER" p.name :: ((authority? p).toList.map (textLine "AUTHORITY") ++
      ["/// Tables in creation order.",
        codeLine "TABLE_NAMES" "&[&str]" (literalList (tableNames ms)),
        "/// \x60CREATE TABLE\x60 statements in creation order, then \x60CREATE INDEX\x60.",
        "pub const SCHEMA: &[&str] = &["])).map .line ++
      .indent :: ((schemaStatements ms o.ddl).map (fun s => .line (Text.quoted s ++ ",")) ++
        [.dedent, .line "];"]) := by
  unfold providerSteps authority?
  rcases p.kind with _ | _ <;> rcases p.authority with _ | authority <;> rfl

/-- **The lines of a provider**, which go one level in for the statements and
come out again. -/
theorem run_providerSteps (p : Provider) (ms : List Model) (o : GeneratorOptions) :
    Code.run 0 (providerSteps p ms o) = (providerLine :: schemaLines p ms o, 0) := by
  rw [providerSteps_eq, Code.run_append, Code.run_lines, Code.run_cons, Code.run_append, Code.run_map_line]
  simp only [schemaLines, List.cons_append, List.append_assoc]
  rfl

/-- The lines that a file embeds for some models, with a blank line before each
module. -/
def embeddedLines (ms : List Model) (o : GeneratorOptions) : List String :=
  ms.flatMap fun m => "" :: Text.lines (renderModule m o)

/-- Modules are embedded as they are, by induction on the models. -/
theorem run_spaced (ms : List Model) (o : GeneratorOptions) :
    Code.run 0 (spaced (ms.map fun m => .embed (renderModule m o))) = (embeddedLines ms o, 0) := by
  induction ms with
  | nil => rfl
  | cons m ms ih =>
    have hspaced : spaced ((m :: ms).map fun m => .embed (renderModule m o)) =
        [.blank, .embed (renderModule m o)] ++ spaced (ms.map fun m => .embed (renderModule m o)) := rfl
    have hsame : ∀ ls : List String, ls.map (Code.indentLine 0) = ls := fun ls =>
      List.map_id'' Code.indentLine_zero ls
    rw [hspaced, Code.run_append]
    simp only [Code.run_cons, Code.run_nil, Code.runStep, hsame, ih]
    simp [embeddedLines]

/-- Modules of models that can be spelled have the lines of their steps. -/
theorem embeddedLines_eq (hms : ∀ m ∈ ms, m.IsSpelled) (o : GeneratorOptions) :
    embeddedLines ms o = moduleLines ms o := by
  refine List.flatMap_congr fun m hm => ?_
  exact congrArg _ (Code.lines_text (isPlain_moduleSteps (hms m hm) o))

/-- **What a file is**: its header, then line by line what the provider needs
and the modules of the models. -/
theorem contents_renderFile (p : Provider) (ms : List Model) (o : GeneratorOptions) :
    (renderFile p ms o).contents = "// " ++ o.header ++ "\n" ++
      Code.join (markLines p ms o ++ providerLine :: (schemaLines p ms o ++ embeddedLines ms o)) := by
  have hrun : (Code.run 0 (fileSteps p ms o)).1 = ("// " ++ o.header) ::
      (markLines p ms o ++ providerLine :: (schemaLines p ms o ++ embeddedLines ms o)) := by
    unfold fileSteps headerSteps
    simp only [Code.run_append, Code.run_cons, Code.run_nil, Code.runStep, run_providerSteps, run_spaced,
      Code.indentLine_zero]
    simp [markLines]
  rw [renderFile, Code.text, hrun]
  simp [Code.join]

/-! ## What can break a line -/

theorem isLine_fingerprint (p : Provider) (ms : List Model) (o : GeneratorOptions) : IsLine (fingerprint p ms o) := by
  have hdigits : ∀ d < 16, Nat.digitChar d ≠ '\n' ∧ Nat.digitChar d ≠ '\r' := by decide +kernel
  intro c hc
  rw [fingerprint, Sha256.hexDigest, String.toList_join] at hc
  obtain ⟨word, hword, hc⟩ := List.mem_flatMap.1 hc
  obtain ⟨w, -, rfl⟩ := List.mem_map.1 hword
  rw [Sha256.wordText, String.toList_ofList, List.mem_append] at hc
  rcases hc with hc | hc
  · rw [(List.mem_replicate.1 hc).2]
    decide
  · obtain ⟨d, hd, rfl⟩ := Text.exists_digitChar_of_mem_toDigits hc
    exact hdigits d hd

theorem isLine_of_mem_markLines (hp : Identifier.isValid p.name = true) : ∀ l ∈ markLines p ms o, IsLine l := by
  have hname := Identifier.isLine_of_isWord (Identifier.isWord_of_isValid hp)
  have hkind : IsLine p.kind.name := by cases p.kind <;> exact isLine_ofList (by decide)
  simp only [markLines, List.forall_mem_cons]
  refine ⟨?_, isLine_append.2 ⟨isLine_ofList (by decide), isLine_fingerprint p ms o⟩, isLine_ofList (by decide),
    List.forall_mem_nil _⟩
  simp only [isLine_append, hname, hkind, and_true]
  and_intros <;> exact isLine_ofList (by decide)

theorem isLine_of_mem_schemaLines : ∀ l ∈ schemaLines p ms o, IsLine l := by
  intro l hl
  simp only [schemaLines, List.mem_cons, List.mem_append, List.mem_map, List.not_mem_nil, or_false] at hl
  rcases hl with rfl | (⟨a, -, rfl⟩ | rfl | rfl | rfl | rfl) | ⟨s, -, rfl⟩ | rfl
  · exact isLine_textLine (isLine_ofList (by decide)) _
  · exact isLine_textLine (isLine_ofList (by decide)) _
  · exact isLine_ofList (by decide)
  · exact isLine_codeLine (isLine_ofList (by decide)) (isLine_ofList (by decide)) (isLine_literalList _)
  · exact isLine_ofList (by decide)
  · exact isLine_ofList (by decide)
  · exact Code.isLine_indentLine (isLine_append.2 ⟨Text.isLine_quoted s, isLine_ofList (by decide)⟩) 1
  · exact isLine_ofList (by decide)

theorem isLine_of_mem_moduleLines (hms : ∀ m ∈ ms, m.IsSpelled) : ∀ l ∈ moduleLines ms o, IsLine l := by
  intro l hl
  obtain ⟨m, hm, hl⟩ := List.mem_flatMap.1 hl
  rcases List.mem_cons.1 hl with rfl | hl
  · exact isLine_ofList (by decide)
  · exact Code.isLine_of_mem_lines (isPlain_moduleSteps (hms m hm) o) l hl

/-- **The lines of a generated file**: those of the header, then those of the
provider and of the modules, which do not depend on the header. -/
theorem lines_renderFile (hp : Identifier.isValid p.name = true) (hms : ∀ m ∈ ms, m.IsSpelled)
    (o : GeneratorOptions) : Text.lines (renderFile p ms o).contents =
      ("// " ++ o.firstLine) :: (o.laterLines ++ (markLines p ms o ++
        providerLine :: (schemaLines p ms o ++ moduleLines ms o))) := by
  have hrest : ∀ l ∈ markLines p ms o ++ providerLine :: (schemaLines p ms o ++ moduleLines ms o), IsLine l := by
    simp only [List.mem_append, List.mem_cons]
    rintro l (hl | rfl | hl | hl)
    · exact isLine_of_mem_markLines hp l hl
    · exact isLine_ofList (by decide)
    · exact isLine_of_mem_schemaLines l hl
    · exact isLine_of_mem_moduleLines hms l hl
  rw [contents_renderFile, embeddedLines_eq hms, Text.lines_append_break, o.lines_header, Text.lines_join hrest,
    List.cons_append]

end Source

end TypedTables

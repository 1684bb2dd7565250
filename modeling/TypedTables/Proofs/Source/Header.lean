import TypedTables.Proofs.Source.Reading
/-!
# TypedTables — headers as comments

The header of a generated file is free text. It is written behind one comment
mark, and the mark reaches to the end of the first line: the other lines of
the header are comments only if they are that by themselves. Nothing of the
header gets below the lines in front of the first constant.
-/

namespace TypedTables

/-- Whether a line is empty or a comment. -/
def IsComment (l : String) : Prop := l = "" ∨ "//".toList <+: l.toList

namespace Source

variable {p : Provider} {ms : List Model} {o : GeneratorOptions} {l : String}

theorem isComment_append (cs : List Char) (t : String) : IsComment (String.ofList ('/' :: '/' :: cs) ++ t) := by
  rw [IsComment, String.toList_append, String.toList_ofList, String.toList_ofList]
  exact .inr ⟨cs ++ t.toList, rfl⟩

theorem isComment_of_mem_markLines (hl : l ∈ markLines p ms o) : IsComment l := by
  simp only [markLines, List.mem_cons, List.not_mem_nil, or_false] at hl
  rcases hl with rfl | rfl | rfl
  · simp only [String.append_assoc]
    exact isComment_append _ _
  · exact isComment_append _ _
  · exact .inl rfl

/-- The lines in front of the constants of a provider. -/
def commentLines (p : Provider) (ms : List Model) (o : GeneratorOptions) : List String :=
  ("// " ++ o.firstLine) :: (o.laterLines ++ markLines p ms o)

/-- Only lines of the header can be anything but comments. -/
theorem forall_commentLines_iff :
    (∀ l ∈ commentLines p ms o, IsComment l) ↔ ∀ l ∈ o.laterLines, IsComment l := by
  have hfirst : IsComment ("// " ++ o.firstLine) := isComment_append _ _
  simp only [commentLines, List.forall_mem_cons, List.mem_append]
  constructor
  · rintro ⟨-, hall⟩ l hl
    exact hall l (.inl hl)
  · intro hlater
    refine ⟨hfirst, fun l hl => ?_⟩
    rcases hl with hl | hl
    · exact hlater l hl
    · exact isComment_of_mem_markLines hl

/-- What follows the comments is the same whatever the header is. -/
theorem exists_lines_renderFile (hp : Identifier.isValid p.name = true) (hms : ∀ m ∈ ms, m.IsSpelled)
    (o : GeneratorOptions) : ∃ below, ∀ header : String,
      Text.lines (renderFile p ms { o with header := header }).contents =
        commentLines p ms { o with header := header } ++ providerLine :: textLine "PROVIDER" p.name :: below := by
  refine ⟨(schemaLines p ms o).tail ++ moduleLines ms o, fun header => ?_⟩
  rw [lines_renderFile hp hms { o with header := header }, commentLines, List.cons_append, List.append_assoc]
  rfl

end Source

/-- **When the header stays a comment.** A generated file has the header, then
comments, then the documentation of the constant with the provider's name. The
lines from there on are the same whatever the header is. The lines in front of
it are empty or comments just if all lines of the header but the first are. -/
theorem header_is_comment_iff {d : Declarations} {r : Registry} (h : extract d = .ok r) (o : GeneratorOptions) :
    ∀ f ∈ Source.generate r o, ∃ above below,
      Text.lines f.contents = above ++ Source.providerLine :: Source.textLine "PROVIDER" f.provider :: below ∧
      (∀ other : String, ∃ f' ∈ Source.generate r { o with header := other }, f'.name = f.name ∧
        ∃ above', Text.lines f'.contents =
          above' ++ Source.providerLine :: Source.textLine "PROVIDER" f.provider :: below) ∧
      ((∀ l ∈ above, IsComment l) ↔ ∀ l ∈ o.laterLines, IsComment l) := by
  have hs := isSound_of_extract h
  have hn := isNamed_of_extract h
  intro f hf
  obtain ⟨p, hp, hne, rfl⟩ := Source.mem_generate.1 hf
  have hms := Source.isSpelled_of_mem_modelsOf hs hn p.name
  obtain ⟨below, hbelow⟩ := Source.exists_lines_renderFile (hn.provider_isValid p hp) hms o
  refine ⟨Source.commentLines p (r.modelsOf p.name) o, below, hbelow o.header, fun other => ?_, ?_⟩
  · exact ⟨Source.fileOf r p { o with header := other }, Source.mem_generate.2 ⟨p, hp, hne, rfl⟩, rfl, _,
      hbelow other⟩
  · exact Source.forall_commentLines_iff

/-- A header of two lines, the second of which looks like the start of an item. -/
def itemHeader : GeneratorOptions where
  header := "Library models\nuse crate::library::Book;"

/-- The second line is no comment, and so it is code. -/
theorem header_is_comment_iff_library : ∃ r, extract libraryDeclarations = .ok r ∧
    itemHeader.laterLines = ["use crate::library::Book;"] ∧ ∃ f ∈ Source.generate r itemHeader, ∃ above below,
      Text.lines f.contents = above ++ Source.providerLine :: Source.textLine "PROVIDER" f.provider :: below ∧
      ¬∀ l ∈ above, IsComment l := by
  have hok := extract_of_errors_eq_nil
    (show (Extraction.findings libraryDeclarations).errors = [] by decide +kernel)
  obtain ⟨p, hp, hne⟩ : ∃ p ∈ (Extraction.register (Extraction.findings libraryDeclarations).result.1
      (Extraction.findings libraryDeclarations).result.2).providers.values,
      (Extraction.register (Extraction.findings libraryDeclarations).result.1
        (Extraction.findings libraryDeclarations).result.2).modelsOf p.name ≠ [] := by
    decide +kernel
  have hlater : itemHeader.laterLines = ["use crate::library::Book;"] := by decide +kernel
  have hf : Source.fileOf _ p itemHeader ∈ Source.generate _ itemHeader := Source.mem_generate.2 ⟨p, hp, hne, rfl⟩
  obtain ⟨above, below, hlines, -, hcomments⟩ := header_is_comment_iff hok itemHeader _ hf
  refine ⟨_, hok, hlater, _, hf, above, below, hlines, fun hall => ?_⟩
  have hitem := hcomments.1 hall "use crate::library::Book;" (by rw [hlater]; exact List.mem_singleton_self _)
  exact absurd hitem (by unfold IsComment; decide +kernel)

end TypedTables

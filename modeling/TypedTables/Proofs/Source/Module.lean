import TypedTables.Proofs.Source.Code
import TypedTables.Proofs.Source.Naming
import TypedTables.Proofs.Text.Quoted
import TypedTables.Source.Module
/-!
# TypedTables — the module of a model is plain

Whatever a sound model has in it, the code of its module is made of single
lines and blocks. Names are words, and every text that is not a name is
quoted, so nothing that was declared can break a line.
-/

namespace TypedTables

/-- **A model whose names can be spelled in code**: it is sound, and its hooks are
called by identifiers. -/
structure Model.IsSpelled (m : Model) : Prop where
  isSound : m.IsSound
  hook_isValid : ∀ hook ∈ m.initHooks, Identifier.isValid hook = true

namespace Source

open Code (IsPlain)
open Identifier (IsWord isLine_of_isWord)
open Text (IsLine isLine_append isLine_ofList)

variable {m : Model} {o : GeneratorOptions} {f : Field} {name type value path : String}

/-! ## Pieces -/

@[simp]
theorem isLine_inRuntime : IsLine (inRuntime path) ↔ IsLine path := by
  have hruntime : IsLine (runtime ++ "::") :=
    isLine_append.2 ⟨isLine_ofList (by decide), isLine_ofList (by decide)⟩
  rw [inRuntime, isLine_append, and_iff_right hruntime]

theorem isLine_resultType (h : IsLine type) : IsLine (resultType type) := by
  unfold resultType
  simp only [isLine_append, isLine_inRuntime, h, and_true]
  and_intros <;> exact isLine_ofList (by decide)

theorem isLine_literalList (items : List String) : IsLine (literalList items) := by
  unfold literalList
  simp only [isLine_append]
  refine ⟨⟨isLine_ofList (by decide), Text.isLine_intercalate (isLine_ofList (by decide)) fun l hl => ?_⟩,
    isLine_ofList (by decide)⟩
  obtain ⟨item, -, rfl⟩ := List.mem_map.1 hl
  exact Text.isLine_quoted item

/-- A constant that holds a text, as a line. -/
def textLine (name value : String) : String := "pub const " ++ name ++ ": &str = " ++ Text.quoted value ++ ";"

/-- A constant whose value is written in code, as a line. -/
def codeLine (name type value : String) : String := "pub const " ++ name ++ ": " ++ type ++ " = " ++ value ++ ";"

/-- **A text constant is one line**, whatever text it holds. -/
theorem isLine_textLine (hname : IsLine name) (value : String) : IsLine (textLine name value) := by
  unfold textLine
  simp only [isLine_append, hname, Text.isLine_quoted value, and_true]
  and_intros <;> exact isLine_ofList (by decide)

theorem isLine_codeLine (hname : IsLine name) (htype : IsLine type) (hvalue : IsLine value) :
    IsLine (codeLine name type value) := by
  unfold codeLine
  simp only [isLine_append, hname, htype, hvalue, and_true]
  and_intros <;> exact isLine_ofList (by decide)

theorem isPlain_textConstant (hname : IsLine name) (value : String) : IsPlain (textConstant name value) :=
  .line (isLine_textLine hname value)

theorem isPlain_constant (hname : IsLine name) (htype : IsLine type) (hvalue : IsLine value) :
    IsPlain (constant name type value) :=
  .line (isLine_codeLine hname htype hvalue)

theorem isPlain_innerConstant (hname : IsLine name) (htype : IsLine type) (hvalue : IsLine value) :
    IsPlain (innerConstant name type value) := by
  refine .line ?_
  simp only [isLine_append, hname, htype, hvalue, and_true]
  and_intros <;> exact isLine_ofList (by decide)

/-! ## Fields -/

/-- A field that is named has a constant of its own, which is a word. -/
theorem of_mem_namedFields (hm : m.IsSound) {p : Field × String} (hp : p ∈ namedFields m) :
    p.1.IsSound ∧ IsWord p.2 := by
  obtain ⟨hfield, hconstant⟩ := List.of_mem_zip hp
  have hnames : ∀ f ∈ m.fields, Identifier.isValid f.name = true := fun f hf =>
    (hm.fields_areSound f hf).name_isValid
  exact ⟨hm.fields_areSound _ hfield, (Naming.isWord_of_mem_columnConstants hnames _ hconstant).1⟩

theorem isPlain_readSteps (hf : IsWord f.name) (hname : IsWord name) : ∀ step ∈ readSteps f name, IsPlain step := by
  have hmember := Naming.isLine_member hf
  have hline := isLine_of_isWord hname
  unfold readSteps
  simp only
  split
  · refine List.forall_mem_cons.2 ⟨.line ?_, List.forall_mem_singleton.2 (.block (isLine_ofList (by decide)) ?_)⟩
    · simp only [isLine_append, hline, and_true]
      and_intros <;> exact isLine_ofList (by decide)
    · refine List.forall_mem_singleton.2 (.line ?_)
      simp only [isLine_append, isLine_inRuntime, hmember, hline, and_true]
      and_intros <;> exact isLine_ofList (by decide)
  · refine List.forall_mem_singleton.2 (.line ?_)
    simp only [isLine_append, hmember, hline, and_true]
    and_intros <;> exact isLine_ofList (by decide)

theorem isPlain_writeSteps (hf : IsWord f.name) (hname : IsWord name) :
    ∀ step ∈ writeSteps f name, IsPlain step := by
  have hmember : IsLine ("self." ++ Naming.member f.name) :=
    isLine_append.2 ⟨isLine_ofList (by decide), Naming.isLine_member hf⟩
  have hvalue : IsLine (inRuntime ("ToValue::to_value(&" ++ ("self." ++ Naming.member f.name) ++ ")")) := by
    rw [isLine_inRuntime, isLine_append, isLine_append]
    exact ⟨⟨isLine_ofList (by decide), hmember⟩, isLine_ofList (by decide)⟩
  have hput : ∀ v, IsLine v → IsLine ("values.put(" ++ name ++ ", " ++ v ++ ");") := by
    intro v hv
    simp only [isLine_append, isLine_of_isWord hname, hv, and_true]
    and_intros <;> exact isLine_ofList (by decide)
  unfold writeSteps
  simp only
  split
  · refine List.forall_mem_cons.2 ⟨.line ?_, List.forall_mem_singleton.2 (.block (isLine_ofList (by decide)) ?_)⟩
    · rw [isLine_append, isLine_append]
      exact ⟨⟨isLine_ofList (by decide), hvalue⟩, isLine_ofList (by decide)⟩
    · exact List.forall_mem_singleton.2 (.line (hput "key" (isLine_ofList (by decide))))
  · split
    · refine List.forall_mem_singleton.2 (.block ?_ (List.forall_mem_singleton.2 (.line (hput _ hvalue))))
      rw [isLine_append, isLine_append]
      exact ⟨⟨isLine_ofList (by decide), hmember⟩, isLine_ofList (by decide)⟩
    · exact List.forall_mem_singleton.2 (.line (hput _ hvalue))

/-! ## The implementation -/

theorem isPlain_fromRowStep (hm : m.IsSpelled) : IsPlain (fromRowStep m) := by
  have hself : IsLine (resultType "Self") := isLine_resultType (isLine_ofList (by decide))
  refine .block ?_ fun step hstep => ?_
  · simp only [isLine_append, isLine_inRuntime, hself, and_true]
    and_intros <;> exact isLine_ofList (by decide)
  simp only [List.mem_append, List.mem_singleton, List.mem_flatMap, List.mem_map] at hstep
  rcases hstep with ((rfl | ⟨p, hp, hstep⟩) | ⟨hook, hhook, rfl⟩) | rfl
  · exact .line (isLine_ofList (by decide))
  · obtain ⟨hf, hname⟩ := of_mem_namedFields hm.isSound hp
    exact isPlain_readSteps (Identifier.isWord_of_isValid hf.name_isValid) hname step hstep
  · have hmember := Naming.isLine_member (Identifier.isWord_of_isValid (hm.hook_isValid hook hhook))
    refine .line ?_
    rw [isLine_append, isLine_append]
    exact ⟨⟨isLine_ofList (by decide), hmember⟩, isLine_ofList (by decide)⟩
  · exact .line (isLine_ofList (by decide))

theorem isPlain_toValuesStep (hm : m.IsSound) : IsPlain (toValuesStep m) := by
  refine .block ?_ fun step hstep => ?_
  · rw [isLine_append, isLine_inRuntime]
    exact ⟨isLine_ofList (by decide), isLine_ofList (by decide)⟩
  simp only [List.mem_append, List.mem_singleton, List.mem_flatMap] at hstep
  rcases hstep with (rfl | ⟨p, hp, hstep⟩) | rfl
  · refine .line ?_
    rw [isLine_append, isLine_inRuntime]
    exact ⟨isLine_ofList (by decide), isLine_ofList (by decide)⟩
  · obtain ⟨hf, hname⟩ := of_mem_namedFields hm hp
    exact isPlain_writeSteps (Identifier.isWord_of_isValid hf.name_isValid) hname step hstep
  · exact .line (isLine_ofList (by decide))

/-- The field of the key can be spoken of. -/
theorem isLine_member_of_primaryKey? (hm : m.IsSound) (hf : m.primaryKey? = some f) :
    IsLine (Naming.member f.name) := by
  have hfield := hm.fields_areSound f (List.mem_of_find?_eq_some hf)
  exact Naming.isLine_member (Identifier.isWord_of_isValid hfield.name_isValid)

theorem isPlain_keyStep (hm : m.IsSound) : IsPlain (keyStep m) := by
  refine .block ?_ (List.forall_mem_singleton.2 (.line ?_))
  · rw [isLine_append, isLine_inRuntime]
    exact ⟨isLine_ofList (by decide), isLine_ofList (by decide)⟩
  · split
    case h_1 f hf =>
      rw [isLine_inRuntime, isLine_append, isLine_append]
      exact ⟨⟨isLine_ofList (by decide), isLine_member_of_primaryKey? hm hf⟩, isLine_ofList (by decide)⟩
    case h_2 => exact isLine_inRuntime.2 (isLine_ofList (by decide))

theorem isPlain_setKeyStep (hm : m.IsSound) : IsPlain (setKeyStep m) := by
  have hunit : IsLine (resultType "()") := isLine_resultType (isLine_ofList (by decide))
  refine .block ?_ (List.forall_mem_cons.2 ⟨.line ?_, List.forall_mem_singleton.2
    (.line (isLine_ofList (by decide)))⟩)
  · simp only [isLine_append, isLine_inRuntime, hunit, and_true]
    and_intros <;> exact isLine_ofList (by decide)
  · split
    case h_1 f hf =>
      simp only [isLine_append, isLine_inRuntime, isLine_member_of_primaryKey? hm hf, and_true]
      and_intros <;> exact isLine_ofList (by decide)
    case h_2 => exact isLine_ofList (by decide)

/-- **The implementation for a model is plain.** -/
theorem isPlain_implStep (hm : m.IsSpelled) : IsPlain (implStep m) := by
  have hmodel := isLine_of_isWord (Identifier.isWord_of_isValid hm.isSound.name_isValid)
  have hkind : IsLine (inRuntime "ProviderKind") := isLine_inRuntime.2 (isLine_ofList (by decide))
  have hkindName : IsLine (kindName m.provider.kind) := by
    cases m.provider.kind <;> exact isLine_ofList (by decide)
  have hvalue : IsLine (inRuntime "ProviderKind" ++ "::" ++ kindName m.provider.kind) := by
    rw [isLine_append, isLine_append]
    exact ⟨⟨hkind, isLine_ofList (by decide)⟩, hkindName⟩
  have htext : IsLine "&\x27static str" := isLine_ofList (by decide)
  have htexts : IsLine "&\x27static [&\x27static str]" := isLine_ofList (by decide)
  refine .block ?_ ?_
  · simp only [isLine_append, isLine_inRuntime, hmodel, and_true]
    and_intros <;> exact isLine_ofList (by decide)
  · simp only [List.forall_mem_cons]
    refine ⟨isPlain_innerConstant (isLine_ofList (by decide)) htext (Text.isLine_quoted _),
      isPlain_innerConstant (isLine_ofList (by decide)) htext (isLine_ofList (by decide)),
      isPlain_innerConstant (isLine_ofList (by decide)) htexts (isLine_ofList (by decide)),
      isPlain_innerConstant (isLine_ofList (by decide)) htext (isLine_ofList (by decide)),
      isPlain_innerConstant (isLine_ofList (by decide)) htext (Text.isLine_quoted _),
      isPlain_innerConstant (isLine_ofList (by decide)) hkind hvalue,
      isPlain_innerConstant (isLine_ofList (by decide)) htext (isLine_ofList (by decide)),
      isPlain_innerConstant (isLine_ofList (by decide)) htexts (isLine_ofList (by decide)),
      .blank, isPlain_fromRowStep hm, .blank, isPlain_toValuesStep hm.isSound, .blank, isPlain_keyStep hm.isSound,
      .blank, isPlain_setKeyStep hm.isSound, List.forall_mem_nil _⟩

/-! ## The module -/

/-- The key's own constant is one of the columns'. -/
theorem isLine_of_keyConstant? (hm : m.IsSound) (hkey : keyConstant? m = some name) : IsLine name := by
  obtain ⟨p, hp, rfl⟩ := Option.map_eq_some_iff.1 hkey
  exact isLine_of_isWord (of_mem_namedFields hm (List.mem_of_find?_eq_some hp)).2

theorem isPlain_constantSteps (hm : m.IsSound) (o : GeneratorOptions) :
    ∀ step ∈ constantSteps m o, IsPlain step := by
  have hnames : ∀ f ∈ m.fields, Identifier.isValid f.name = true := fun f hf =>
    (hm.fields_areSound f hf).name_isValid
  have hcolumns : IsLine ("&[" ++ String.intercalate ", " (Naming.columnConstants m.fields) ++ "]") := by
    simp only [isLine_append]
    refine ⟨⟨isLine_ofList (by decide), Text.isLine_intercalate (isLine_ofList (by decide)) fun n hn => ?_⟩,
      isLine_ofList (by decide)⟩
    exact isLine_of_isWord (Naming.isWord_of_mem_columnConstants hnames n hn).1
  intro step hstep
  simp only [constantSteps, List.mem_append, List.mem_cons, List.mem_map, List.not_mem_nil, or_false] at hstep
  rcases hstep with (rfl | ⟨p, hp, rfl⟩) | rfl | rfl | rfl | rfl
  · exact isPlain_textConstant (isLine_ofList (by decide)) _
  · exact isPlain_textConstant (isLine_of_isWord (of_mem_namedFields hm hp).2) _
  · split
    case h_1 name hkey =>
      exact isPlain_constant (isLine_ofList (by decide)) (isLine_ofList (by decide)) (isLine_of_keyConstant? hm hkey)
    case h_2 => exact isPlain_textConstant (isLine_ofList (by decide)) _
  · exact isPlain_constant (isLine_ofList (by decide)) (isLine_ofList (by decide)) hcolumns
  · exact isPlain_textConstant (isLine_ofList (by decide)) _
  · exact isPlain_constant (isLine_ofList (by decide)) (isLine_ofList (by decide)) (isLine_literalList _)

theorem isPlain_entryPointStep (hm : m.IsSound) {entry : String × String} (hentry : entry ∈ entryPoints) :
    IsPlain (entryPointStep m.name entry) := by
  have hmodel := isLine_of_isWord (Identifier.isWord_of_isValid hm.name_isValid)
  have hlines : ∀ e ∈ entryPoints, IsLine e.1 ∧ IsLine e.2 := by decide
  obtain ⟨hname, hbuilder⟩ := hlines entry hentry
  have hparameter : IsLine (if m.name == "P" then "Q" else "P") := by
    split <;> exact isLine_ofList (by decide)
  have hnew : IsLine (inRuntime entry.2 ++ "::new(provider)") :=
    isLine_append.2 ⟨isLine_inRuntime.2 hbuilder, isLine_ofList (by decide)⟩
  refine .block ?_ (List.forall_mem_singleton.2 (.line hnew))
  simp only [isLine_append, isLine_inRuntime, hname, hparameter, hbuilder, hmodel, and_true]
  and_intros <;> exact isLine_ofList (by decide)

theorem mem_spaced {steps : List CodeStep} {step : CodeStep} (h : step ∈ spaced steps) :
    step = .blank ∨ step ∈ steps := by
  obtain ⟨s, hs, hstep⟩ := List.mem_flatMap.1 h
  rcases List.mem_cons.1 hstep with rfl | hstep
  · exact .inl rfl
  · exact .inr (List.mem_singleton.1 hstep ▸ hs)

/-- What stands in the module of a model. -/
def moduleBody (m : Model) (o : GeneratorOptions) : Code :=
  [.line ("use " ++ m.packagePath ++ "::" ++ m.name ++ ";"), .blank] ++ constantSteps m o ++
    [.blank, implStep m] ++
    if o.emitEntryPoints then spaced (entryPoints.map (entryPointStep m.name)) else []

theorem moduleSteps_eq (m : Model) (o : GeneratorOptions) : moduleSteps m o =
    [.line ("/// Table \x60" ++ m.tableName ++ "\x60 for \x60" ++ m.name ++ "\x60."),
      .block ("pub mod " ++ Naming.moduleName m.name) (moduleBody m o)] := rfl

theorem isPlain_moduleBody (hm : m.IsSpelled) (o : GeneratorOptions) :
    ∀ step ∈ moduleBody m o, IsPlain step := by
  have hmodel := isLine_of_isWord (Identifier.isWord_of_isValid hm.isSound.name_isValid)
  have hpath := Naming.isLine_of_isModulePath hm.isSound.package_isPath
  intro step hstep
  simp only [moduleBody, List.mem_append, List.mem_cons, List.not_mem_nil, or_false] at hstep
  rcases hstep with (((rfl | rfl) | hstep) | rfl | rfl) | hstep
  · refine .line ?_
    simp only [isLine_append, hpath, hmodel, and_true]
    and_intros <;> exact isLine_ofList (by decide)
  · exact .blank
  · exact isPlain_constantSteps hm.isSound o step hstep
  · exact .blank
  · exact isPlain_implStep hm
  · split at hstep
    · rcases mem_spaced hstep with rfl | hstep
      · exact .blank
      · obtain ⟨entry, hentry, rfl⟩ := List.mem_map.1 hstep
        exact isPlain_entryPointStep hm.isSound hentry
    · cases hstep

/-- **The module of a model is plain.** -/
theorem isPlain_moduleSteps (hm : m.IsSpelled) (o : GeneratorOptions) :
    ∀ step ∈ moduleSteps m o, IsPlain step := by
  have hmodel := isLine_of_isWord (Identifier.isWord_of_isValid hm.isSound.name_isValid)
  have htable := isLine_of_isWord (Identifier.isWord_of_isValid hm.isSound.tableName_isValid)
  have hmodule := Naming.isLine_moduleName (Identifier.isWord_of_isValid hm.isSound.name_isValid)
  rw [moduleSteps_eq]
  refine List.forall_mem_cons.2 ⟨.line ?_, List.forall_mem_singleton.2
    (.block ?_ (isPlain_moduleBody hm o))⟩
  · simp only [isLine_append, htable, hmodel, and_true]
    and_intros <;> exact isLine_ofList (by decide)
  · exact isLine_append.2 ⟨isLine_ofList (by decide), hmodule⟩

/-- **The lines of a module**: a comment, the line that opens it, its body one
level in, and the brace that closes it. -/
theorem lines_moduleSteps (hm : m.IsSpelled) (o : GeneratorOptions) :
    Code.lines (moduleSteps m o) =
      ("/// Table \x60" ++ m.tableName ++ "\x60 for \x60" ++ m.name ++ "\x60.") ::
        ("pub mod " ++ Naming.moduleName m.name ++ " \x7b") ::
        ((Code.lines (moduleBody m o)).map (Code.indentLine 1) ++ ["\x7d"]) := by
  have hblock := Code.lines_block ("pub mod " ++ Naming.moduleName m.name) (isPlain_moduleBody hm o)
  rw [moduleSteps_eq, Code.lines, Code.run_cons, ← hblock]
  simp [Code.runStep, Code.lines]

end Source

end TypedTables

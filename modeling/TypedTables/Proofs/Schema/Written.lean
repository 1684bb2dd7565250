import TypedTables.Proofs.Document.Json.RoundTrip
import TypedTables.Proofs.Document.Json.Scalar
import TypedTables.Proofs.Registry.Directory
import TypedTables.Registry.Written
import TypedTables.Source.Options
/-!
# TypedTables — written schemas read back

Each decoder gives back what was written as a document. A member that is left
out where there is no value stands for its absence, and a default is told by
the form of its scalar alone, so one that was written is still of its kind.
-/

namespace TypedTables

/-! ## Decoders -/

namespace Members

variable {α : Type} (entries : List (String × Document)) (name : String) (fallback : α) (decode : Decoder α)

@[simp]
theorem required_eq : required ⟨.json, entries⟩ name decode = (entries.lookup name).bind (decode .json) := rfl

@[simp]
theorem withDefault_eq :
    withDefault ⟨.json, entries⟩ name fallback decode = (entries.lookup name).elim (some fallback) (decode .json) := by
  rw [withDefault]
  rcases entries.lookup name with _ | d <;> rfl

end Members

namespace Decoder

variable {α : Type} {decode : Decoder α} {write : α → Document} {names : List String}
  {entries : List (String × Document)} {read : Members → Option α}

@[simp] theorem text_text (s : String) : text .json (.text s) = some s := rfl

@[simp] theorem bool_bool (b : Bool) : bool .json (.bool b) = some b := rfl

/-- A record is read by the names of its members. -/
theorem record_map (h : hasRepeated names entries = false) :
    record names false read .json (.map entries) = read ⟨.json, entries⟩ := by
  simp [record, h]

theorem mapM_map_eq_some {β γ : Type} {f : γ → Option β} {g : β → γ} {xs : List β}
    (h : ∀ x ∈ xs, f (g x) = some x) : (xs.map g).mapM f = some xs := by
  induction xs with
  | nil => rfl
  | cons x xs ih =>
    obtain ⟨hx, hxs⟩ := List.forall_mem_cons.1 h
    rw [List.map_cons, List.mapM_cons, hx, ih hxs]
    rfl

/-- A list is read item by item. -/
theorem list_map {xs : List α} (h : ∀ x ∈ xs, decode .json (write x) = some x) :
    list decode .json (.list (xs.map write)) = some xs :=
  mapM_map_eq_some h

theorem list_ofTexts (texts : List String) : list text .json (Document.ofTexts texts) = some texts :=
  list_map fun _ _ => rfl

/-- A map with arbitrary keys is read pair by pair. -/
theorem pairs_map {xs : List (String × α)} (h : ∀ e ∈ xs, decode .json (write e.2) = some e.2) :
    pairs decode .json (.map (xs.map fun (name, x) => (name, write x))) = some xs :=
  mapM_map_eq_some fun e he => by
    simp only [h e he]
    rfl

end Decoder

/-! ## Schemas -/

theorem int64?_toInt (n : Int64) : int64? n.toInt = some n := by
  rw [int64?, if_pos ⟨n.minValue_le_toInt, n.toInt_le⟩, Int64.ofInt_toInt]

/-- **A default is of the kind that it was.** -/
theorem DefaultValue.decoder_toDocument (v : DefaultValue) : decoder .json v.toDocument = some v := by
  cases v with
  | bool b => rfl
  | integer n =>
    have hword : Int64.minValue.toInt ≤ n.toInt ∧ n.toInt < UInt64.size :=
      ⟨n.minValue_le_toInt, Int.lt_trans n.toInt_lt (by decide)⟩
    have hsame : ofInteger n.toInt = .integer n := by
      rw [ofInteger, int64?_toInt]
      rfl
    exact (if_pos hword).trans (congrArg some hsame)
  | real x => rfl
  | text s => rfl

theorem Provider.decoder_toDocument (p : Provider) : decoder .json p.toDocument = some p := by
  obtain ⟨name, kind, authority, count⟩ := p
  cases kind <;> cases authority <;> cases count <;> rfl

theorem SemanticType.ofName?_name (t : SemanticType) : ofName? t.name = some t := by
  cases t <;> rfl

theorem DefaultValue.optional_toDocument (v : DefaultValue) :
    Decoder.optional decoder .json v.toDocument = some (some v) := by
  have hread : (decoder .json v.toDocument).map some = some (some v) := congrArg (Option.map some) v.decoder_toDocument
  cases v <;> exact hread

theorem Field.decoder_toDocument (f : Field) : decoder .json f.toDocument = some f := by
  obtain ⟨name, column, type, declared, nullable, key, increment, indexed, unique, notNull, default⟩ := f
  have htype : Decoder.named SemanticType.ofName? .json (.text type.name) = some type := type.ofName?_name
  -- a default that is absent has no member, and is read from its absence
  cases default with
  | none =>
    rw [decoder, toDocument, Decoder.record_map rfl]
    simp [List.lookup_cons, Document.optionalMember, htype]
  | some v =>
    have hdefault := v.optional_toDocument
    rw [decoder, toDocument, Decoder.record_map rfl]
    simp [List.lookup_cons, Document.optionalMember, htype, hdefault]

theorem ForeignKey.decoder_toDocument (fk : ForeignKey) : decoderWith false .json fk.toDocument = some fk := rfl

theorem Model.decoder_toDocument (m : Model) : decoder .json m.toDocument = some m := by
  have hfields : Decoder.list Field.decoder .json (.list (m.fields.map Field.toDocument)) = some m.fields :=
    Decoder.list_map fun f _ => f.decoder_toDocument
  have hkeys : Decoder.list (ForeignKey.decoderWith false) .json (.list (m.foreignKeys.map ForeignKey.toDocument)) =
      some m.foreignKeys := Decoder.list_map fun fk _ => fk.decoder_toDocument
  have hgroups : Decoder.list (.list .text) .json (.list (m.uniqueGroups.map Document.ofTexts)) = some m.uniqueGroups :=
    Decoder.list_map fun texts _ => Decoder.list_ofTexts texts
  have hhooks := Decoder.list_ofTexts m.initHooks
  have hprovider := m.provider.decoder_toDocument
  rw [decoder, toDocument, Decoder.record_map rfl]
  simp [List.lookup_cons, hfields, hkeys, hgroups, hhooks, hprovider]

theorem GeneratorOptions.decoder_toDocument (o : GeneratorOptions) : decoder .json o.toDocument = some o := rfl

theorem Registry.decoder_toDocument (r : Registry) : decoder .json r.toDocument = some r := by
  have hreadProviders := Decoder.pairs_map fun e (_ : e ∈ r.providers.entries) => e.2.decoder_toDocument
  have hreadModels := Decoder.pairs_map fun e (_ : e ∈ r.models.entries) => e.2.decoder_toDocument
  rw [decoder, toDocument, Decoder.record_map rfl]
  simp [List.lookup_cons, hreadProviders, hreadModels, Directory.ofList_entries]

/-! ## Schemas in JSON -/

namespace Json

variable {d? : Option Document} {name : String}

@[simp]
theorem keeps_ofTexts (texts : List String) : Keeps (Document.ofTexts texts) := by
  simp [Document.ofTexts]

theorem keeps_optionalMember (h : ∀ d ∈ d?, Keeps d) : ∀ e ∈ Document.optionalMember name d?, Keeps e.2 := by
  cases d? with
  | none => exact nofun
  | some d => simpa [Document.optionalMember] using h

end Json

/-- The reals among the defaults of a model. -/
def Model.realDefaults (m : Model) : List Double :=
  m.fields.filterMap fun f => f.defaultValue.bind fun
    | .real x => some x
    | _ => none

def Registry.realDefaults (r : Registry) : List Double := r.models.values.flatMap Model.realDefaults

open Json (Keeps keeps_ofTexts keeps_optionalMember)

@[simp]
theorem Provider.keeps_toDocument (p : Provider) : Keeps p.toDocument := by
  have hauthority : ∀ d ∈ p.authority.map Document.text, Keeps d := by simp
  refine .map (List.forall_mem_append.2 ⟨List.forall_mem_append.2 ⟨?_, keeps_optionalMember hauthority⟩, ?_⟩) <;> simp

theorem DefaultValue.keeps_toDocument (v : DefaultValue) (h : ∀ x, v = .real x → Json.IsKept x) :
    Keeps v.toDocument := by
  cases v with
  | bool b => exact .bool b
  | integer n => exact .integer n.minValue_le_toInt (Int.lt_trans n.toInt_lt (by decide))
  | real x => exact .real (h x rfl).parse?_realText
  | text s => exact .text s

theorem Field.keeps_toDocument (f : Field) (h : ∀ x, f.defaultValue = some (.real x) → Json.IsKept x) :
    Keeps f.toDocument := by
  have hdefault : ∀ d ∈ f.defaultValue.map DefaultValue.toDocument, Keeps d := by
    intro d hd
    obtain ⟨v, hv, rfl⟩ := Option.map_eq_some_iff.1 hd
    exact v.keeps_toDocument fun x hx => h x (hx ▸ hv)
  refine .map (List.forall_mem_append.2 ⟨?_, keeps_optionalMember hdefault⟩)
  simp

@[simp]
theorem ForeignKey.keeps_toDocument (fk : ForeignKey) : Keeps fk.toDocument := by
  simp [toDocument]

theorem Model.keeps_toDocument (m : Model) (h : ∀ x ∈ m.realDefaults, Json.IsKept x) : Keeps m.toDocument := by
  have hfields : ∀ f ∈ m.fields, Keeps f.toDocument := by
    refine fun f hf => f.keeps_toDocument fun x hx => h x ?_
    exact List.mem_filterMap.2 ⟨f, hf, by rw [hx]; rfl⟩
  simpa [toDocument] using hfields

@[simp]
theorem GeneratorOptions.keeps_toDocument (o : GeneratorOptions) : Keeps o.toDocument := by
  simp [toDocument]

theorem Registry.keeps_toDocument (r : Registry) (h : ∀ x ∈ r.realDefaults, Json.IsKept x) : Keeps r.toDocument := by
  have hmodels : ∀ e ∈ r.models.entries, Keeps e.2.toDocument := by
    refine fun e he => e.2.keeps_toDocument fun x hx => h x ?_
    exact List.mem_flatMap.2 ⟨e.2, List.mem_map.2 ⟨e, he, rfl⟩, hx⟩
  refine .map (List.forall_mem_cons.2 ⟨.map ?_, List.forall_mem_cons.2 ⟨.map ?_, nofun⟩⟩)
  · exact List.forall_mem_map.2 fun e _ => e.2.keeps_toDocument
  · exact List.forall_mem_map.2 hmodels

end TypedTables

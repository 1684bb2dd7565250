import TypedTables.Proofs.Digest.Sha256
import TypedTables.Proofs.Schema.Written
import TypedTables.Source.File
/-!
# TypedTables — fingerprints of generated files

What a file depends on is written without a loss: it can be read back from the
document that is digested. So different inputs are different texts, and the
fingerprints of two files are the same only if the files depend on the same, or
if the digest itself has a collision.
-/

namespace TypedTables

namespace Source

/-- What the file of a provider depends on. -/
structure Input where
  provider : Provider
  models : List Model
  options : GeneratorOptions
deriving DecidableEq

namespace Input

variable {i j : Input}

def toDocument (i : Input) : Document := fingerprintDocument i.provider i.models i.options

def fingerprint (i : Input) : String := Source.fingerprint i.provider i.models i.options

theorem fingerprint_eq (i : Input) : i.fingerprint = Sha256.hexDigest (Json.compact i.toDocument) := rfl

/-- The reals among the defaults of the models. -/
def realDefaults (i : Input) : List Double := i.models.flatMap Model.realDefaults

/-- Reads what is digested. Its parts have decoders of their own. -/
def decoder : Decoder Input :=
  .record ["provider", "models", "options"] false fun m => do
    return {
      provider := ← m.required "provider" Provider.decoder
      models := ← m.required "models" (.list Model.decoder)
      options := ← m.required "options" GeneratorOptions.decoder }

theorem decoder_toDocument (i : Input) : decoder .json i.toDocument = some i := by
  have hprovider := i.provider.decoder_toDocument
  have hmodels : Decoder.list Model.decoder .json (.list (i.models.map Model.toDocument)) = some i.models :=
    Decoder.list_map fun m _ => m.decoder_toDocument
  have hoptions := i.options.decoder_toDocument
  rw [decoder, toDocument, fingerprintDocument, Decoder.record_map rfl]
  simp [List.lookup_cons, hprovider, hmodels, hoptions]

theorem keeps_toDocument (h : ∀ x ∈ i.realDefaults, Json.IsKept x) : Json.Keeps i.toDocument := by
  have hmodels : ∀ m ∈ i.models, Json.Keeps m.toDocument := fun m hm =>
    m.keeps_toDocument fun x hx => h x (List.mem_flatMap.2 ⟨m, hm, hx⟩)
  simpa [toDocument, fingerprintDocument] using hmodels

/-- **What a file depends on is read back from what is digested.** -/
theorem parse?_compact (h : ∀ x ∈ i.realDefaults, Json.IsKept x) :
    (Json.parse? (Json.compact i.toDocument)).bind (decoder .json) = some i := by
  rw [Json.parse?_compact (keeps_toDocument h), Option.bind_some, decoder_toDocument]

theorem compact_inj (hi : ∀ x ∈ i.realDefaults, Json.IsKept x) (hj : ∀ x ∈ j.realDefaults, Json.IsKept x)
    (h : Json.compact i.toDocument = Json.compact j.toDocument) : i = j :=
  Option.some.inj <|
    calc
      some i = (Json.parse? (Json.compact i.toDocument)).bind (decoder .json) := (parse?_compact hi).symm
      _ = (Json.parse? (Json.compact j.toDocument)).bind (decoder .json) := by rw [h]
      _ = some j := parse?_compact hj

end Input

end Source

/-- **A registry is read back from what it is written as**, on one line or on
many. -/
theorem Registry.parse?_written {r : Registry} (h : ∀ x ∈ r.realDefaults, Json.IsKept x) :
    (Json.parse? (Json.compact r.toDocument)).bind (decoder .json) = some r ∧
      (Json.parse? (Json.pretty r.toDocument)).bind (decoder .json) = some r := by
  have hkeeps := r.keeps_toDocument h
  have hread := r.decoder_toDocument
  rw [Json.parse?_compact hkeeps, Json.parse?_pretty hkeeps]
  exact ⟨hread, hread⟩

/-- **Metadata is written without a loss.** A registry whose real defaults JSON
can keep is read back as it was, and so is what a generated file depends on.
Different inputs have different texts, so where they have the same fingerprint,
their texts are a collision of the digest. -/
theorem metadata_is_lossless :
    (∀ r : Registry, (∀ x ∈ r.realDefaults, Json.IsKept x) →
      (Json.parse? (Json.compact r.toDocument)).bind (Registry.decoder .json) = some r ∧
        (Json.parse? (Json.pretty r.toDocument)).bind (Registry.decoder .json) = some r) ∧
    (∀ i : Source.Input, (∀ x ∈ i.realDefaults, Json.IsKept x) →
      (Json.parse? (Json.compact i.toDocument)).bind (Source.Input.decoder .json) = some i) ∧
    ∀ i j : Source.Input, (∀ x ∈ i.realDefaults, Json.IsKept x) → (∀ x ∈ j.realDefaults, Json.IsKept x) → i ≠ j →
      Json.compact i.toDocument ≠ Json.compact j.toDocument ∧
        (i.fingerprint = j.fingerprint →
          Sha256.IsCollision (Json.compact i.toDocument).toUTF8.toList (Json.compact j.toDocument).toUTF8.toList) := by
  refine ⟨fun r => Registry.parse?_written, fun i => Source.Input.parse?_compact, fun i j hi hj hne => ?_⟩
  have htexts : Json.compact i.toDocument ≠ Json.compact j.toDocument := fun h => hne (Source.Input.compact_inj hi hj h)
  refine ⟨htexts, fun hfingerprint => ?_⟩
  rw [i.fingerprint_eq, j.fingerprint_eq] at hfingerprint
  exact Sha256.isCollision_of_hexDigest_eq htexts hfingerprint

/-- A gauge whose scale is as given unless it is set. Its label looks like a number. -/
def gauge (scale : DefaultValue) : Model where
  name := "Gauge"
  tableName := "gauges"
  packagePath := "crate::desk"
  fields :=
    [{ name := "id", columnName := "id", semanticType := .long, declaredType := "i64", isPrimaryKey := true },
      { name := "scale", columnName := "scale", semanticType := .real, declaredType := "f64",
        defaultValue := some scale },
      { name := "label", columnName := "label", semanticType := .text, declaredType := "String",
        defaultValue := some (.text "1") },
      { name := "isOn", columnName := "is_on", semanticType := .boolean, declaredType := "bool",
        defaultValue := some (.bool true) }]
  provider := { name := "desk", kind := .local }

def gaugeInput (scale : DefaultValue) : Source.Input := ⟨{ name := "desk", kind := .local }, [gauge scale], {}⟩

def gaugeRegistry (scale : DefaultValue) : Registry where
  providers := .ofList [("desk", { name := "desk", kind := .local })]
  models := .ofList [("Gauge", gauge scale)]

/-- The real `1`, which looks like the integer. -/
def oneReal : Double := ⟨0x3ff0_0000_0000_0000⟩

/-- A real that looks like an integer stays a real, and is not written as the
integer is. -/
theorem metadata_is_lossless_gauge :
    (Json.parse? (Json.compact (gaugeRegistry (.real oneReal)).toDocument)).bind (Registry.decoder .json) =
        some (gaugeRegistry (.real oneReal)) ∧
      (Json.parse? (Json.compact (gaugeInput (.real oneReal)).toDocument)).bind (Source.Input.decoder .json) =
        some (gaugeInput (.real oneReal)) ∧
      Json.compact (gaugeInput (.real oneReal)).toDocument ≠ Json.compact (gaugeInput (.integer 1)).toDocument := by
  have hregistry : ∀ x ∈ (gaugeRegistry (.real oneReal)).realDefaults, Json.IsKept x := by decide +kernel
  have hreal : ∀ x ∈ (gaugeInput (.real oneReal)).realDefaults, Json.IsKept x := by decide +kernel
  have hinteger : ∀ x ∈ (gaugeInput (.integer 1)).realDefaults, Json.IsKept x := by decide +kernel
  have hne : gaugeInput (.real oneReal) ≠ gaugeInput (.integer 1) := by decide +kernel
  obtain ⟨hregistries, hinputs, hfingerprints⟩ := metadata_is_lossless
  exact ⟨(hregistries _ hregistry).1, hinputs _ hreal, (hfingerprints _ _ hreal hinteger hne).1⟩

end TypedTables

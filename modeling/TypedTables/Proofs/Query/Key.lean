import TypedTables.Proofs.Mapping.RoundTrip
import TypedTables.Proofs.Query.Refusal
import TypedTables.Schema.Identifier
/-!
# TypedTables — rows by their keys

Updates and deletes that are given a struct look for the row that has its key.
Extraction accepts keys of every type, and conditions take every kind of value
but a blob. So all structs can be addressed except those whose key is a blob,
and these are refused before the store is asked.
-/

namespace TypedTables

variable {σ α : Type}

/-! ## The key of an instance -/

namespace FieldType

/-- **Blobs are the values of byte vectors**, where there are any. -/
theorem exists_toValue_eq_blob_iff {t : FieldType} (ht : t.scalar ≠ .any) {x : t.Carrier} :
    (∃ b, t.toValue x = .blob b) ↔ t.scalar = .bytes ∧ t.toValue x ≠ .null := by
  have hscalar : ∀ {t : ScalarType}, t ≠ .any → ∀ x : t.Carrier,
      ((∃ b, t.toValue x = .blob b) ↔ t = .bytes ∧ t.toValue x ≠ .null) := by
    intro t ht x
    have hnull := ScalarType.toValue_ne_null ht x
    cases t with
    | any => exact absurd rfl ht
    | bytes => exact ⟨fun _ => ⟨rfl, hnull⟩, fun _ => ⟨x, rfl⟩⟩
    | _ => exact ⟨fun ⟨_, h⟩ => Value.noConfusion h, fun h => nomatch h.1⟩
  cases t with
  | required t => exact hscalar ht x
  | optional t =>
    cases x with
    | none => exact ⟨fun ⟨_, h⟩ => Value.noConfusion h, fun h => absurd rfl h.2⟩
    | some x => exact hscalar ht x

end FieldType

/-- **The key of an instance is a value of the key field's type**, by induction
on the fields: the first one that is a key is the slot that is read. -/
theorem Instance.exists_key {fs : List Field} {slots : List Slot} (hslots : fs.mapM Field.slot? = some slots)
    {f : Field} (hf : fs.find? (·.isPrimaryKey) = some f) :
    ∃ t, FieldType.ofDeclared? f.declaredType = some t ∧
      ∀ xs : Instance slots, ∃ x : t.Carrier, Instance.key slots xs = t.toValue x := by
  induction fs generalizing slots with
  | nil => cases hf
  | cons g fs ih =>
    rw [List.mapM_cons] at hslots
    obtain ⟨s, hs, hslots⟩ := Option.bind_eq_some_iff.1 hslots
    obtain ⟨rest, hrest, hslots⟩ := Option.bind_eq_some_iff.1 hslots
    obtain rfl := Option.some.inj hslots
    obtain ⟨t, ht, rfl⟩ := Option.map_eq_some_iff.1 hs
    by_cases hkey : g.isPrimaryKey = true
    · rw [List.find?_cons_of_pos hkey] at hf
      obtain rfl := Option.some.inj hf
      refine ⟨t, ht, fun ⟨x, _⟩ => ⟨x, ?_⟩⟩
      rw [Instance.key, if_pos hkey]
    · rw [List.find?_cons_of_neg hkey] at hf
      obtain ⟨u, hu, hread⟩ := ih hrest hf
      refine ⟨u, hu, fun ⟨_, xs⟩ => ?_⟩
      rw [Instance.key, if_neg hkey]
      exact hread xs

/-- The column of a key is the column of the field. -/
theorem Mapping.keyColumn_eq {m : Mapping α} {column : String}
    (h : m.model.primaryKey?.map (·.columnName) = some column) : m.keyColumn = column := by
  obtain ⟨f, hf, rfl⟩ := Option.map_eq_some_iff.1 h
  rw [keyColumn, hf]

/-! ## The condition on the key -/

namespace Clause

variable {column : String} {v : Value}

/-- The condition that a column has a value. -/
def keySql (column : String) (v : Value) : Sql :=
  if v.isNull then .lit (column ++ " IS NULL") else .lit (column ++ " = ") ++ .bind v

/-- A column that has a name is compared with a blob in vain. -/
theorem compile_eq_blob (hcolumn : Text.allBlank column = false) (b : List UInt8) :
    (Clause.eq column (.blob b)).compile = .error (.unsupportedValue column .blob) := by
  have hchecked : checkColumn column = .ok () := by rw [checkColumn, hcolumn, if_neg Bool.false_ne_true]
  rw [Clause.eq, compile, compileCompare, hchecked]
  rfl

/-- **It is compared with every other value.** -/
theorem compile_eq_of_ne_blob (hcolumn : Text.allBlank column = false) (hv : ∀ b, v ≠ .blob b) :
    (Clause.eq column v).compile = .ok (keySql column v) := by
  have hchecked : checkColumn column = .ok () := by rw [checkColumn, hcolumn, if_neg Bool.false_ne_true]
  have hequal : column ++ " = " = column ++ " " ++ "=" ++ " " := by simp only [String.append_assoc]; rfl
  rw [Clause.eq, compile, compileCompare, hchecked, keySql, hequal]
  cases v with
  | blob b => exact absurd rfl (hv b)
  | _ => rfl

end Clause

/-! ## Builders of a struct -/

namespace QueryM

/-- A call is answered as the store answers it, and logged. -/
theorem run_ofStore_logged (store : Storage σ) (call : StoreCall) (log : List StoreCall) (w : σ) :
    (ofStore (store.logged.perform call)).run (log, w) =
      (((store.perform call).run w).1.mapError .storage, log ++ [call], ((store.perform call).run w).2) := by
  rw [run_ofStore, Storage.run_perform_logged]

end QueryM

namespace Delete

variable {m : Mapping α} {store : Storage σ}

/-- A delete whose condition compiles is one call. -/
theorem run_of_compiles {s : Delete} {c : Clause} {sql : Sql} (hfilter : s.filter = some c)
    (hc : c.compile = .ok sql) (log : List StoreCall) (w : σ) :
    (s.run m store.logged).run (log, w) =
      (((store.delete m.table sql).run w).1.mapError .storage, log ++ [.delete m.table sql],
        ((store.delete m.table sql).run w).2) := by
  have hcompiled : Clause.compileOption s.filter = .ok sql := by
    rw [hfilter]
    exact hc
  rw [run, hcompiled]
  exact QueryM.run_ofStore_logged store (.delete m.table sql) log w

end Delete

namespace Update

variable {m : Mapping α} {store : Storage σ}

/-- So is an update that has values. -/
theorem run_of_compiles {s : Update} {c : Clause} {sql : Sql} (hvalues : s.values.isEmpty = false)
    (hfilter : s.filter = some c) (hc : c.compile = .ok sql) (log : List StoreCall) (w : σ) :
    (s.run m store.logged).run (log, w) =
      (((store.update m.table s.values sql).run w).1.mapError .storage,
        log ++ [.update m.table s.values sql], ((store.update m.table s.values sql).run w).2) := by
  have hcompiled : Clause.compileOption s.filter = .ok sql := by
    rw [hfilter]
    exact hc
  rw [run, hcompiled, hvalues]
  exact QueryM.run_ofStore_logged store (.update m.table s.values sql) log w

end Update

/-- The first execution answers as what it runs. -/
theorem BuilderKind.execute_of_run {k : BuilderKind σ} {e : k.Execution} {settings : k.Settings}
    {state : BuilderState} (h : state ≠ .executed) {answer : Except QueryError (k.Answer e)} {w w' : σ}
    (hrun : (k.run e settings).run w = (answer, w')) :
    k.execute e (⟨settings, state⟩, w) = (answer, ⟨settings, .executed⟩, w') := by
  rw [execute_of_not_executed e h, hrun]

/-- **How builders that are given a struct deal with its key**, on a store. -/
structure AddressesByKey (m : Mapping α) (store : Storage σ) (x : α) : Prop where
  /-- A key that is no blob is looked for, and the store's answer is the answer. -/
  delete_call : (∀ b, m.key x ≠ .blob b) → ∀ (b : Builder Delete) log w, b.state ≠ .executed →
    let k := BuilderKind.delete m store.logged
    let sql := Clause.keySql m.keyColumn (m.key x)
    let answer := (store.delete m.table sql).run w
    k.execute () (k.set (.model x) b, log, w) =
      (answer.1.mapError .storage, ⟨{ filter := some (.eq m.keyColumn (m.key x)) }, .executed⟩,
        log ++ [.delete m.table sql], answer.2)
  update_call : (∀ b, m.key x ≠ .blob b) → ∀ (b : Builder Update) log w, b.state ≠ .executed →
    let k := BuilderKind.update m store.logged
    let sql := Clause.keySql m.keyColumn (m.key x)
    let values := (m.toValues x).without m.keyColumn
    let answer := (store.update m.table values sql).run w
    values.isEmpty = false → k.execute () (k.set (.model x) b, log, w) =
      (answer.1.mapError .storage, ⟨{ values, filter := some (.eq m.keyColumn (m.key x)) }, .executed⟩,
        log ++ [.update m.table values sql], answer.2)
  /-- A blob is refused, and the store is not asked. -/
  delete_refused : ∀ bytes, m.key x = .blob bytes → ∀ s,
    (BuilderKind.delete m store.logged).Refuses (Delete.set m (.model x) s)
      (.clause (.unsupportedValue m.keyColumn .blob))
  update_refused : ∀ bytes, m.key x = .blob bytes → ∀ s,
    (Update.set m (.model x) s).values.isEmpty = false →
    (BuilderKind.update m store.logged).Refuses (Update.set m (.model x) s)
      (.clause (.unsupportedValue m.keyColumn .blob))

/-- **Every struct is addressed by its key**, if the key has a name. -/
theorem addressesByKey {m : Mapping α} (hcolumn : Text.allBlank m.keyColumn = false) (store : Storage σ)
    (x : α) : AddressesByKey m store x where
  delete_call hkey b log w hb :=
    (BuilderKind.delete m store.logged).execute_of_run (BuilderState.configure_ne_executed hb)
      (Delete.run_of_compiles rfl (Clause.compile_eq_of_ne_blob hcolumn hkey) log w)
  update_call hkey b log w hb hvalues :=
    (BuilderKind.update m store.logged).execute_of_run (BuilderState.configure_ne_executed hb)
      (Update.run_of_compiles hvalues rfl (Clause.compile_eq_of_ne_blob hcolumn hkey) log w)
  delete_refused bytes hkey s := by
    refine (BuilderKind.isLawful_delete m store).refuses fun _ => ?_
    refine Preparation.checked_of_filter (c := .eq m.keyColumn (m.key x)) rfl ?_
    rw [hkey]
    exact Clause.compile_eq_blob hcolumn bytes
  update_refused bytes hkey s hvalues := by
    refine (BuilderKind.isLawful_update m store).refuses fun _ => ?_
    unfold Update.preparation
    rw [hvalues, if_neg Bool.false_ne_true]
    refine Preparation.checked_of_filter (c := .eq m.keyColumn (m.key x)) rfl ?_
    rw [hkey]
    exact Clause.compile_eq_blob hcolumn bytes

/-! ## Extracted models -/

/-- **Extracted models are addressed by their keys.** Every extracted model has
one key, and its structs are addressed by it, whatever else they have. The key of
a struct is a blob just if the field is declared with bytes and the key is there. -/
theorem keys_address_rows {d : Declarations} {r : Registry} (h : extract d = .ok r) {m : Model}
    (hm : m ∈ r.models.values) :
    ∃ slots f t, m.slots? = some slots ∧ m.fields.filter (·.isPrimaryKey) = [f] ∧
      FieldType.ofDeclared? f.declaredType = some t ∧
      ∀ {α : Type} (options : DdlOptions) (view : α → Instance slots) (replace : Instance slots → α → α)
        (initial : α) (hooks : α → α) (x : α),
        let mapping := Mapping.ofSlots m options slots view replace initial hooks
        mapping.keyColumn = f.columnName ∧
        ((∃ b, mapping.key x = .blob b) ↔ t.scalar = .bytes ∧ mapping.key x ≠ .null) ∧
        ∀ {σ : Type} (store : Storage σ), AddressesByKey mapping store x := by
  obtain ⟨hnone, rfl⟩ := Extraction.errors_of_extract h
  have hsound := (Extraction.isSound_of_errors_eq_nil hnone).models_areSound m hm
  obtain ⟨slots, hslots, -, -⟩ := Model.exists_slots? hsound
  obtain ⟨f, hf⟩ := hsound.exists_key
  have hfind : m.fields.find? (·.isPrimaryKey) = some f := by
    rw [← List.head?_filter, hf]
    rfl
  obtain ⟨t, ht, hkey⟩ := Instance.exists_key hslots hfind
  have hfield := hsound.fields_areSound f (List.mem_of_find?_eq_some hfind)
  have hscalar : t.scalar ≠ .any := by
    obtain ⟨u, hu, hne, -⟩ := FieldType.exists_ofDeclared? hfield.isTyped
    rw [ht] at hu
    exact Option.some.inj hu ▸ hne
  refine ⟨slots, f, t, hslots, hf, ht, fun options view replace initial hooks x => ?_⟩
  intro mapping
  have hcolumn : mapping.keyColumn = f.columnName :=
    Mapping.keyColumn_eq (congrArg (Option.map (·.columnName)) hfind)
  refine ⟨hcolumn, ?_, fun store => addressesByKey ?_ store x⟩
  · obtain ⟨y, hy⟩ := hkey (view x)
    rw [show mapping.key x = t.toValue y from hy]
    exact FieldType.exists_toValue_eq_blob_iff hscalar
  · rw [hcolumn]
    exact Identifier.allBlank_eq_false hfield.columnName_isValid

/-- The book is deleted by its number. -/
theorem keys_address_rows_book :
    ∃ r m, extract libraryDeclarations = .ok r ∧ m ∈ r.models.values ∧ m.slots? = some bookSlots ∧
      let k := BuilderKind.delete (Mapping.ofModel m {} bookSlots id) (Storage.scripted .local {}).logged
      (k.execute () (k.set (.model emma) k.start, [], [])).2.2.1 =
        [.delete "books" ⟨"id = ?", [.integer 0]⟩] := by
  have hok := extract_of_errors_eq_nil
    (show (Extraction.findings libraryDeclarations).errors = [] by decide +kernel)
  obtain ⟨m, hm, hbook, htable, hcolumn⟩ : ∃ m ∈ (Extraction.register
      (Extraction.findings libraryDeclarations).result.1
      (Extraction.findings libraryDeclarations).result.2).models.values,
      m.slots? = some bookSlots ∧ m.tableName = "books" ∧
        m.primaryKey?.map (·.columnName) = some "id" := by decide +kernel
  refine ⟨_, m, hok, hm, hbook, ?_⟩
  obtain ⟨slots, f, t, hslots, -, -, haddressed⟩ := keys_address_rows hok hm
  obtain rfl : bookSlots = slots := Option.some.inj (hbook.symm.trans hslots)
  obtain ⟨-, -, hstore⟩ := haddressed {} id (fun xs _ => xs) (Instance.initial bookSlots) id emma
  intro k
  have hcall := (hstore (Storage.scripted .local {})).delete_call (fun _ => nofun) k.start [] [] nofun
  have hlog : (k.execute () (k.set (.model emma) k.start, [], [])).2.2.1 =
      [.delete m.tableName (Clause.keySql (Mapping.ofModel m {} bookSlots id).keyColumn (.integer 0))] :=
    congrArg (fun x => x.2.2.1) hcall
  have hkeyColumn : (Mapping.ofModel m {} bookSlots id).keyColumn = "id" := Mapping.keyColumn_eq hcolumn
  rw [hlog, htable, hkeyColumn]
  rfl

/-- Pictures that are found by the digest of their bytes. -/
def pictureDeclarations : Declarations where
  providers := [⟨"album", ProviderKind.localRoot, none, none⟩]
  models :=
    [{ name := "Picture", table := some "pictures", packagePath := some "crate::album",
        provider := some "album",
        members :=
          [⟨"digest", some "Vec<u8>", some { isPrimaryKey := true }, false⟩,
            ⟨"title", some "String", some {}, false⟩] }]

/-- The slots of the pictures. -/
def pictureSlots : List Slot :=
  [{ field := "digest", column := "digest", type := .required .bytes, role := .always, isKey := true },
    { field := "title", column := "title", type := .required .text, role := .always }]

/-- **Not all of them are addressed**: the delete of a picture is refused. -/
theorem not_all_addressed :
    ¬ ∀ (d : Declarations) (r : Registry), extract d = .ok r → ∀ m ∈ r.models.values,
      ∀ slots, m.slots? = some slots → ∀ (x : Instance slots) {σ : Type} (store : Storage σ) (w : σ) fault,
        let mapping := Mapping.ofModel m {} slots id
        let delete := BuilderKind.delete mapping store
        let update := BuilderKind.update mapping store
        (delete.execute () (delete.set (.model x) delete.start, w)).1 ≠ .error (.clause fault) ∧
          (((mapping.toValues x).without mapping.keyColumn).isEmpty = false →
            (update.execute () (update.set (.model x) update.start, w)).1 ≠ .error (.clause fault)) := by
  intro hall
  have hok := extract_of_errors_eq_nil
    (show (Extraction.findings pictureDeclarations).errors = [] by decide +kernel)
  obtain ⟨m, hm, hslots, hcolumn⟩ : ∃ m ∈ (Extraction.register
      (Extraction.findings pictureDeclarations).result.1
      (Extraction.findings pictureDeclarations).result.2).models.values,
      m.slots? = some pictureSlots ∧ m.primaryKey?.map (·.columnName) = some "digest" := by decide +kernel
  let mapping := Mapping.ofModel m {} pictureSlots id
  have hkeyColumn : mapping.keyColumn = "digest" := Mapping.keyColumn_eq hcolumn
  have hnamed : Text.allBlank mapping.keyColumn = false := hkeyColumn ▸ by decide +kernel
  let sunset : Instance pictureSlots := ([0, 255], "Sunset", ())
  have hrefused := (addressesByKey hnamed (Storage.scripted .local {}) sunset).delete_refused [0, 255] rfl {}
  have hfault := hrefused () .configured ([], []) nofun
  refine (hall _ _ hok m hm _ hslots sunset (Storage.scripted .local {}).logged ([], [])
    (.unsupportedValue mapping.keyColumn .blob)).1 ?_
  exact congrArg Prod.fst hfault

end TypedTables

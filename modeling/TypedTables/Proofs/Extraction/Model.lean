import TypedTables.Extraction.Model
import TypedTables.Proofs.Extraction.Field
/-!
# TypedTables — models that pass

A model is built only if nothing was found in its lineage, members taken
over included. What was not found is what makes it sound: it has one key, its
names are valid and different, and its own columns are all that its foreign
keys and unique groups speak of.
-/

namespace TypedTables

/-- **A model that can be stored and generated**, as far as it speaks of
itself. -/
structure Model.IsSound (m : Model) : Prop where
  name_isValid : Identifier.isValid m.name = true
  name_isFree : (Naming.isUnescapable m.name || Naming.isKeyword m.name) = false
  tableName_isValid : Identifier.isValid m.tableName = true
  package_isPath : Naming.isModulePath m.packagePath = true
  fields_areSound : ∀ f ∈ m.fields, f.IsSound
  names_nodup : (m.fields.map (·.name)).Nodup
  columns_nodup : m.columns.Nodup
  exists_key : ∃ f, m.fields.filter (·.isPrimaryKey) = [f]
  localColumn_mem : ∀ fk ∈ m.foreignKeys, fk.localColumn ∈ m.columns
  targetNames_areValid : ∀ fk ∈ m.foreignKeys,
    Identifier.isValid fk.targetTable = true ∧ Identifier.isValid fk.targetColumn = true
  uniqueColumn_mem : ∀ group ∈ m.uniqueGroups, ∀ c ∈ group, c ∈ m.columns

namespace Extraction

variable {model : String} {m : ModelDeclaration} {c : Context} {seen : List String}

/-- What one member adds is a sound field that is called like it. -/
theorem isSound_of_buildMember {member : MemberDeclaration} {f : Field}
    (he : (buildMember model member).errors = []) (hf : (buildMember model member).result = some f) :
    f.IsSound ∧ f.name = member.name := by
  unfold buildMember at he hf
  rcases hfield : member.field with _ | attributes
  · simp [hfield] at hf
  · simp only [hfield, Option.isSome_some, Bool.or_true, if_true, List.append_eq_nil_iff] at he hf
    have hname := (isValid_of_sourceNameErrors he.1).1
    exact ⟨isSound_of_buildField hname he.2 hf, name_of_buildField hf⟩

/-- **The fields of a lineage are sound and called differently**, by
induction on its members: each name that is used is one that was not seen. -/
theorem isSound_of_buildMembers {members : List MemberDeclaration}
    (he : (buildMembers model seen members).errors = []) :
    (∀ f ∈ (buildMembers model seen members).result, f.IsSound ∧ f.name ∉ seen) ∧
      ((buildMembers model seen members).result.map (·.name)).Nodup := by
  induction members generalizing seen with
  | nil => exact ⟨List.forall_mem_nil _, List.nodup_nil⟩
  | cons member members ih =>
    unfold buildMembers at he ⊢
    by_cases hs : seen.contains member.name = true
    · rw [if_pos hs] at he
      nomatch he
    · rw [if_neg hs] at he ⊢
      have hnew : member.name ∉ seen := by simpa using hs
      obtain ⟨hone, hrest⟩ := List.append_eq_nil_iff.1 he
      obtain ⟨hsound, hnodup⟩ := ih hrest
      -- the fields behind this one were built with its name among those seen
      have hother : ∀ f ∈ (buildMembers model (member.name :: seen) members).result,
          f.IsSound ∧ f.name ∉ seen := fun f hf =>
        ⟨(hsound f hf).1, fun h => (hsound f hf).2 (List.mem_cons_of_mem _ h)⟩
      rcases hresult : (buildMember model member).result with _ | f
      · simp only [hresult, Option.toList_none, List.nil_append]
        exact ⟨hother, hnodup⟩
      · obtain ⟨hf, hname⟩ := isSound_of_buildMember hone hresult
        simp only [hresult, Option.toList_some, List.singleton_append]
        refine ⟨fun g hg => ?_, List.nodup_cons.2 ⟨fun hmem => ?_, hnodup⟩⟩
        · rcases List.mem_cons.1 hg with rfl | hg
          · exact ⟨hf, hname ▸ hnew⟩
          · exact hother g hg
        · obtain ⟨g, hg, hgname⟩ := List.mem_map.1 hmem
          refine (hsound g hg).2 ?_
          have hsame : g.name = member.name := hgname.trans hname
          rw [hsame]
          exact List.mem_cons_self

theorem exists_key_of_keyErrors {fields : List Field} (h : keyErrors model fields = []) :
    ∃ f, fields.filter (·.isPrimaryKey) = [f] := by
  unfold keyErrors at h
  split at h
  · nomatch h
  case h_2 name hn =>
    obtain ⟨f, hf, -⟩ := List.map_eq_singleton_iff.1 hn
    exact ⟨f, hf⟩
  · nomatch h

theorem mem_of_uniqueGroupErrors {columns : List String} {groups : List (List String)}
    (h : uniqueGroupErrors model columns groups = []) :
    ∀ group ∈ groups, ∀ c ∈ group, c ∈ columns := by
  intro group hg c hc
  have hall := List.flatMap_eq_nil_iff.1 h c (List.mem_flatten.2 ⟨group, hg, hc⟩)
  rw [errorUnless_eq_nil] at hall
  simpa using hall

theorem isSound_of_foreignKeyErrors {columns : List String} {fk : ForeignKey}
    (h : foreignKeyErrors model columns fk = []) :
    fk.localColumn ∈ columns ∧ Identifier.isValid fk.targetTable = true ∧
      Identifier.isValid fk.targetColumn = true := by
  obtain ⟨hrest, hcolumn⟩ := List.append_eq_nil_iff.1 h
  obtain ⟨hlocal, htable⟩ := List.append_eq_nil_iff.1 hrest
  rw [errorUnless_eq_nil] at hlocal
  exact ⟨by simpa using hlocal, isValid_of_identifierErrors htable, isValid_of_identifierErrors hcolumn⟩

theorem isModulePath_of_packageErrors {path : String} (h : packageErrors model (some path) = []) :
    Naming.isModulePath path = true :=
  errorUnless_eq_nil.1 h

/-- The provider of a model is one of those that were resolved. -/
theorem mem_of_findProvider {name : Option String} {p : Provider}
    (h : (findProvider c model name).result = some p) : p ∈ c.providers := by
  unfold findProvider at h
  rcases name with _ | name
  · nomatch h
  · simp only at h
    split at h
    case h_1 q hq =>
      obtain rfl := Option.some.inj h
      exact List.mem_of_find?_eq_some hq
    · nomatch h

/-- **A model that is built is sound**, keeps the name of its declaration and
is bound to a provider that was resolved. -/
theorem isSound_of_buildFromLineage {chain : List ModelDeclaration} {built : Model}
    (h : (buildFromLineage c m chain).result = some built) :
    built.IsSound ∧ built.name = m.name ∧ built.provider ∈ c.providers := by
  unfold buildFromLineage at h
  simp only at h
  split at h
  case h_2 => nomatch h
  case h_1 provider path herrors hprovider hpath =>
    obtain rfl := Option.some.inj h
    simp only [List.append_eq_nil_iff] at herrors
    obtain ⟨⟨⟨⟨⟨⟨⟨⟨hname, hpackage⟩, -⟩, htable⟩, hfields⟩, hcolumns⟩, hkey⟩, hunique⟩, hforeign⟩ :=
      herrors
    rw [hpath] at hpackage
    obtain ⟨hvalid, hfree⟩ := isValid_of_sourceNameErrors hname
    obtain ⟨hsound, hnodup⟩ := isSound_of_buildMembers hfields
    have hforeign' := fun fk hfk => isSound_of_foreignKeyErrors (List.flatMap_eq_nil_iff.1 hforeign fk hfk)
    refine ⟨?_, rfl, mem_of_findProvider hprovider⟩
    exact {
      name_isValid := hvalid
      name_isFree := by simpa using hfree
      tableName_isValid := by
        unfold tableOf
        rcases ht : m.table with _ | table
        · exact hvalid
        · rw [ht] at htable
          exact isValid_of_identifierErrors htable
      package_isPath := isModulePath_of_packageErrors hpackage
      fields_areSound := fun f hf => (hsound f hf).1
      names_nodup := hnodup
      columns_nodup := (nodup_of_repeated (List.map_eq_nil_iff.1 hcolumns)).1
      exists_key := exists_key_of_keyErrors hkey
      localColumn_mem := fun fk hfk => (hforeign' fk hfk).1
      targetNames_areValid := fun fk hfk => (hforeign' fk hfk).2
      uniqueColumn_mem := mem_of_uniqueGroupErrors hunique }

end Extraction

end TypedTables

import Mathlib
import TypedTables.Schema.Identifier
import TypedTables.Proofs.Schema.Migration
import TypedTables.Storage.ContentStore
import TypedTables.Text.Lower
/-!
# TypedTables — locators of tables

A content store addresses a table by its name with the first letter in lower
case. The full table of lower-case forms says of the first letter of an identifier
what ASCII says, so two identifiers become one without their first capitals only
if one is the other with a capital. Extraction compares the names of tables as
they are, so two tables of one provider that differ in this letter alone are both
accepted, and are one place to the resolver. That is the only way in which two
tables meet.
-/

namespace TypedTables

/-! ## First letters in lower case -/

namespace Text

variable {a b : String} {c d : Char}

/-- A text is another one with a capital for its first letter. -/
def Capitalizes (a b : String) : Prop :=
  ∃ c cs, c.isUpper = true ∧ a.toList = c :: cs ∧ b.toList = c.toLower :: cs

/-- A capital is 32 places before its lower-case form. -/
theorem toNat_toLower (h : c.isUpper = true) : c.toLower.toNat = c.toNat + 32 := by
  have hle : c.toNat ≤ 90 := UInt32.le_iff_toNat_le.1 (of_decide_eq_true h).2
  have hvalid : (c.toNat + 32).isValidChar := .inl (by omega)
  rw [Char.toLower_eq_of_isUpper h, Char.toNat_ofNat, if_pos hvalid]

/-- **Two characters have one lower-case form** if they are the same, or one of
them is the other in lower case. -/
theorem toLower_eq_toLower_iff : c.toLower = d.toLower ↔
    c = d ∨ c.isUpper = true ∧ c.toLower = d ∨ d.isUpper = true ∧ d.toLower = c := by
  constructor
  · intro h
    by_cases hc : c.isUpper = true <;> by_cases hd : d.isUpper = true
    · -- capitals are equally far from their lower-case forms
      have hnat : c.toLower.toNat = d.toLower.toNat := congrArg Char.toNat h
      rw [toNat_toLower hc, toNat_toLower hd] at hnat
      exact .inl (Char.toNat_inj.1 (Nat.add_right_cancel hnat))
    · exact .inr (.inl ⟨hc, h.trans (Char.toLower_eq_of_not_isUpper hd)⟩)
    · exact .inr (.inr ⟨hd, h.symm.trans (Char.toLower_eq_of_not_isUpper hc)⟩)
    · rw [Char.toLower_eq_of_not_isUpper hc, Char.toLower_eq_of_not_isUpper hd] at h
      exact .inl h
  · rintro (rfl | ⟨-, rfl⟩ | ⟨-, rfl⟩)
    · rfl
    · exact (Char.toLower_toLower_eq_toLower c).symm
    · exact Char.toLower_toLower_eq_toLower d

/-- Of the table only its first line is about ASCII: the capitals of the alphabet. -/
theorem find?_capitals {n : Nat} (hn : n < 128) :
    capitals.find? (·.holds n) = if 65 ≤ n ∧ n ≤ 90 then some ⟨65, 90, 1, 32⟩ else none := by
  have htable : capitals = ⟨65, 90, 1, 32⟩ :: capitals.tail := rfl
  have hlater : ∀ r ∈ capitals.tail, 128 ≤ r.first := by decide +kernel
  have hnone : capitals.tail.find? (·.holds n) = none := by
    refine List.find?_eq_none.2 fun r hr => ?_
    have hless : ¬r.first ≤ n := by
      have hfirst := hlater r hr
      omega
    simp [CaseRun.holds, hless]
  have hfirst : CaseRun.holds ⟨65, 90, 1, 32⟩ n = decide (65 ≤ n ∧ n ≤ 90) := by
    simp [CaseRun.holds, Nat.mod_one]
  rw [htable, List.find?_cons, hfirst, hnone]
  by_cases hcapital : 65 ≤ n ∧ n ≤ 90
  · rw [decide_eq_true hcapital, if_pos hcapital]
  · rw [decide_eq_false hcapital, if_neg hcapital]

/-- **For the first character of an identifier the lower-case form is the one of
ASCII**, so it is one character. -/
theorem lowerChar_of_isStart (h : Identifier.isStart c = true) : lowerChar c = [c.toLower] := by
  have hc := Identifier.toNat_lt_of_isStart h
  have hupper : c.isUpper = true ↔ 65 ≤ c.toNat ∧ c.toNat ≤ 90 := by
    simp [Char.isUpper, UInt32.le_iff_toNat_le]
  unfold lowerChar
  rw [if_neg (by omega), find?_capitals hc]
  by_cases hcapital : 65 ≤ c.toNat ∧ c.toNat ≤ 90
  · rw [if_pos hcapital, Char.toLower_eq_of_isUpper (hupper.2 hcapital)]
    rfl
  · rw [if_neg hcapital, Char.toLower_eq_of_not_isUpper fun h => hcapital (hupper.1 h)]

/-- No text capitalizes itself. -/
theorem Capitalizes.ne (h : Capitalizes a b) : a ≠ b := by
  rintro rfl
  obtain ⟨c, cs, hc, hupper, hlower⟩ := h
  rw [hupper] at hlower
  have hnat : c.toNat = c.toLower.toNat := congrArg Char.toNat (List.cons.inj hlower).1
  rw [toNat_toLower hc] at hnat
  omega

/-- What becomes of an identifier. -/
theorem exists_lowerFirst_eq (h : Identifier.isValid a = true) :
    ∃ c cs, a.toList = c :: cs ∧ (lowerFirst a).toList = c.toLower :: cs := by
  obtain ⟨c, cs, ha, hstart, -⟩ := Identifier.exists_cons_of_isValid h
  refine ⟨c, cs, ha, ?_⟩
  unfold lowerFirst
  rw [ha]
  simp only
  rw [lowerChar_of_isStart hstart, String.toList_ofList]
  rfl

/-- **Two identifiers are one without their first capitals** just if they are
the same, or one of them capitalizes the other. -/
theorem lowerFirst_eq_lowerFirst_iff (ha : Identifier.isValid a = true) (hb : Identifier.isValid b = true) :
    lowerFirst a = lowerFirst b ↔ a = b ∨ Capitalizes a b ∨ Capitalizes b a := by
  obtain ⟨c, cs, hac, hla⟩ := exists_lowerFirst_eq ha
  obtain ⟨d, ds, hbd, hlb⟩ := exists_lowerFirst_eq hb
  rw [← String.toList_inj, ← String.toList_inj, hla, hlb, hac, hbd, List.cons.injEq, List.cons.injEq,
    toLower_eq_toLower_iff]
  unfold Capitalizes
  rw [hac, hbd]
  -- what follows the first characters is the same on both sides of each equation
  constructor
  · rintro ⟨hsame | ⟨hc, hlower⟩ | ⟨hd, hlower⟩, rfl⟩
    · exact .inl ⟨hsame, rfl⟩
    · exact .inr (.inl ⟨c, cs, hc, rfl, hlower ▸ rfl⟩)
    · exact .inr (.inr ⟨d, cs, hd, rfl, hlower ▸ rfl⟩)
  · rintro (⟨hsame, hrest⟩ | ⟨e, es, he, hc, hd⟩ | ⟨e, es, he, hd, hc⟩)
    · exact ⟨.inl hsame, hrest⟩
    · obtain ⟨rfl, rfl⟩ := List.cons.inj hc
      obtain ⟨rfl, rfl⟩ := List.cons.inj hd
      exact ⟨.inr (.inl ⟨he, rfl⟩), rfl⟩
    · obtain ⟨rfl, rfl⟩ := List.cons.inj hc
      obtain ⟨rfl, rfl⟩ := List.cons.inj hd
      exact ⟨.inr (.inr ⟨he, rfl⟩), rfl⟩

end Text

/-! ## The locator of a table -/

/-- Tables have one locator if their names are one without the first capitals. -/
theorem ContentStore.uri_eq_uri_iff (s : ContentStore) {a b : String} :
    s.uri a = s.uri b ↔ Text.lowerFirst a = Text.lowerFirst b := by
  refine ⟨fun h => ?_, fun h => by rw [uri, uri, h]⟩
  -- scheme and authority stand before both
  have hlist := congrArg String.toList h
  simp only [uri, String.toList_append] at hlist
  exact String.toList_inj.1 (List.append_cancel_left hlist)

namespace Model

variable {m n : Model} {ms : List Model}

/-- Different models of one provider have different tables, so that one name has
to capitalize the other for them to meet. -/
theorem AreSound.uri_eq_uri_iff (hs : AreSound ms) (s : ContentStore) (hm : m ∈ ms) (hn : n ∈ ms)
    (hne : m ≠ n) : s.uri m.tableName = s.uri n.tableName ↔
      Text.Capitalizes m.tableName n.tableName ∨ Text.Capitalizes n.tableName m.tableName := by
  have htables : m.tableName ≠ n.tableName :=
    fun he => hne (List.inj_on_of_nodup_map hs.tables_nodup hm hn he)
  rw [s.uri_eq_uri_iff, Text.lowerFirst_eq_lowerFirst_iff (hs.each_isSound m hm).tableName_isValid
    (hs.each_isSound n hn).tableName_isValid]
  exact or_iff_right htables

/-- All locators are different if no table capitalizes another one. -/
theorem AreSound.nodup_uris_iff (hs : AreSound ms) (s : ContentStore) :
    (ms.map fun m => s.uri m.tableName).Nodup ↔
      ¬∃ m ∈ ms, ∃ n ∈ ms, Text.Capitalizes m.tableName n.tableName := by
  constructor
  · rintro hnodup ⟨m, hm, n, hn, hcap⟩
    have hne : m ≠ n := fun he => hcap.ne (congrArg (·.tableName) he)
    have hmeet : s.uri m.tableName = s.uri n.tableName := (hs.uri_eq_uri_iff s hm hn hne).2 (.inl hcap)
    exact hne (List.inj_on_of_nodup_map hnodup hm hn hmeet)
  · intro hnone
    have hnodup : ms.Nodup := hs.tables_nodup.of_map _
    refine hnodup.map_on fun m hm n hn hmeet => ?_
    by_contra hne
    rcases (hs.uri_eq_uri_iff s hm hn hne).1 hmeet with hcap | hcap
    · exact hnone ⟨m, hm, n, hn, hcap⟩
    · exact hnone ⟨n, hn, m, hm, hcap⟩

end Model

/-! ## Content providers -/

namespace Extraction

/-- Entries that are called differently are listed as they are. -/
theorem mem_values_ofList {α : Type} {name : α → String} {xs : List α} (h : (xs.map name).Nodup) {x : α} :
    x ∈ (Directory.ofList (xs.map fun x => (name x, x))).values ↔ x ∈ xs := by
  have hpairs : ((xs.map fun x => (name x, x)).map Prod.fst).Nodup := by
    rw [List.map_map]
    exact h
  have hperm := (Directory.entries_ofList_perm hpairs).map Prod.snd
  rw [List.map_map] at hperm
  exact hperm.mem_iff.trans (by simp)

/-- **A content provider has an authority**, its own or the one of a provider
that it extends. -/
theorem exists_authority_of_resolveProvider {declared : Directory ProviderDeclaration}
    {d : ProviderDeclaration} {p : Provider}
    (h : (Findings.ofExcept (resolveProvider declared d)).result = some p) (hp : p.kind = .content) :
    ∃ authority, p.authority = some authority := by
  obtain ⟨chain, hchain⟩ := exists_bindProvider_of_resolveProvider h
  -- a chain that ends in content without an authority on it is refused
  unfold bindProvider at hchain
  split at hchain
  · split at hchain
    · nomatch hchain
    · obtain rfl := Except.ok.inj hchain
      exact ⟨_, rfl⟩
  · obtain rfl := Except.ok.inj hchain
    nomatch hp

/-- **A registered provider was resolved**, and it is found by its name. -/
theorem of_mem_providers_register {d : Declarations} (hnone : (findings d).errors = []) {p : Provider}
    (hp : p ∈ (register (findings d).result.1 (findings d).result.2).providers.values) :
    (register (findings d).result.1 (findings d).result.2).provider? p.name = some p ∧
      ∃ declared ∈ (providerDirectory d.providers).values, (Findings.ofExcept
        (resolveProvider (providerDirectory d.providers) declared)).result = some p := by
  have herrors := hnone
  simp only [findings, List.append_eq_nil_iff] at herrors
  obtain ⟨⟨⟨⟨⟨⟨⟨hnames, -⟩, -⟩, -⟩, -⟩, -⟩, -⟩, -⟩ := herrors
  have hnodup := nodup_resolveProviders hnames
  have hproviders : (register (findings d).result.1 (findings d).result.2).providers =
      .ofList ((findings d).result.1.map fun p => (p.name, p)) :=
    providers_register hnodup fun m hm => (isSound_of_mem_buildModels hm).2
  rw [hproviders] at hp
  have hresolved : p ∈ (findings d).result.1 := (mem_values_ofList hnodup).1 hp
  refine ⟨?_, List.mem_filterMap.1 hresolved⟩
  rw [Registry.provider?, hproviders]
  exact find?_ofList hnodup hresolved

end Extraction

/-- **When tables have locators of their own.** Every content provider of what
was extracted has a store, with the authority that it is bound to. Two of its
models have one locator just if the table of one capitalizes the table of the
other; if none does, all locators are different. -/
theorem locators_differ_iff {d : Declarations} {r : Registry} (h : extract d = .ok r) {p : Provider}
    (hp : p ∈ r.providers.values) (hkind : p.kind = .content) :
    (∀ m ∈ r.modelsOf p.name, m.provider = p) ∧
    ∃ s, ContentStore.ofProvider? p = some s ∧ p.authority = some s.authority ∧
      (∀ m ∈ r.modelsOf p.name, ∀ n ∈ r.modelsOf p.name, m ≠ n →
        (s.uri m.tableName = s.uri n.tableName ↔
          Text.Capitalizes m.tableName n.tableName ∨ Text.Capitalizes n.tableName m.tableName)) ∧
      (((r.modelsOf p.name).map fun m => s.uri m.tableName).Nodup ↔
        ¬∃ m ∈ r.modelsOf p.name, ∃ n ∈ r.modelsOf p.name,
          Text.Capitalizes m.tableName n.tableName) := by
  obtain ⟨hnone, rfl⟩ := Extraction.errors_of_extract h
  have hsound := Extraction.isSound_of_errors_eq_nil hnone
  have hmodels := hsound.areSound p.name
  obtain ⟨hfound, declared, -, hresolved⟩ := Extraction.of_mem_providers_register hnone hp
  obtain ⟨authority, hauthority⟩ := Extraction.exists_authority_of_resolveProvider hresolved hkind
  refine ⟨fun m hm => ?_, ⟨authority, p.count⟩, ?_, hauthority, ?_, hmodels.nodup_uris_iff _⟩
  · obtain ⟨hm, hname⟩ := List.mem_filter.1 hm
    have hregistered := hsound.provider_isRegistered m hm
    rw [beq_iff_eq.1 hname, hfound] at hregistered
    exact (Option.some.inj hregistered).symm
  · rw [ContentStore.ofProvider?, hkind, hauthority]
    rfl
  · exact fun m hm n hn hne => hmodels.uri_eq_uri_iff _ hm hn hne

/-- People and groups of an address book. Their tables differ in one capital. -/
def addressDeclarations : Declarations where
  providers := [⟨"book", ProviderKind.contentRoot, some "com.example.contacts", none⟩]
  models :=
    [{ name := "Person", table := some "Contacts", packagePath := some "crate::book",
        provider := some "book",
        members := [⟨"id", some "i64", some { isPrimaryKey := true }, false⟩] },
      { name := "Group", table := some "contacts", packagePath := some "crate::book",
        provider := some "book",
        members := [⟨"title", some "String", some { isPrimaryKey := true }, false⟩] }]

/-- Both are at `content://com.example.contacts/contacts`. -/
theorem locators_differ_iff_contacts : ∃ r, extract addressDeclarations = .ok r ∧
    ∃ p ∈ r.providers.values, p.kind = .content ∧ ∃ s, ContentStore.ofProvider? p = some s ∧
      ∃ m ∈ r.modelsOf p.name, ∃ n ∈ r.modelsOf p.name, m.name = "Person" ∧ n.name = "Group" ∧
        s.uri m.tableName = s.uri n.tableName := by
  have h := extract_of_errors_eq_nil
    (show (Extraction.findings addressDeclarations).errors = [] by decide +kernel)
  obtain ⟨r, hr⟩ : ∃ r, Extraction.register (Extraction.findings addressDeclarations).result.1
      (Extraction.findings addressDeclarations).result.2 = r := ⟨_, rfl⟩
  have hthere : ∃ p ∈ r.providers.values, p.kind = .content ∧
      ∃ m ∈ r.modelsOf p.name, ∃ n ∈ r.modelsOf p.name, (m.name = "Person" ∧ n.name = "Group") ∧
        m ≠ n ∧ m.tableName = "Contacts" ∧ n.tableName = "contacts" := by
    rw [← hr]
    decide +kernel
  rw [hr] at h
  obtain ⟨p, hp, hkind, m, hm, n, hn, hnames, hne, htable, htable'⟩ := hthere
  obtain ⟨-, s, hs, -, hmeet, -⟩ := locators_differ_iff h hp hkind
  have hcap : Text.Capitalizes m.tableName n.tableName := by
    rw [htable, htable']
    exact ⟨'C', "ontacts".toList, by decide, by decide +kernel, by decide +kernel⟩
  exact ⟨r, h, p, hp, hkind, s, hs, m, hm, n, hn, hnames.1, hnames.2, (hmeet m hm n hn hne).2 (.inl hcap)⟩

end TypedTables

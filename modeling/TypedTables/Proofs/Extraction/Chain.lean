import TypedTables.Proofs.Extraction.Lineage
/-!
# TypedTables — what providers and models extend

The declared providers and models are filed under their names, and what each of
them comes to is said here of the declarations alone. A provider is bound by its
chain to a root: the root gives the kind, and for a content store the authority
and the way of counting are those of the nearest provider that states them, which
need not be the same one. A model comes with its lineage. Everything else is one
error, which tells why there is no such chain.
-/

namespace TypedTables

variable {α β : Type}

/-- **The first thing that is stated** along a chain. -/
def IsNearest (states : α → Option β) (chain : List α) (x : β) : Prop :=
  ∃ nearer a further, chain = nearer ++ a :: further ∧ states a = some x ∧ ∀ b ∈ nearer, states b = none

theorem isNearest_iff {states : α → Option β} {chain : List α} {x : β} :
    IsNearest states chain x ↔ chain.findSome? states = some x :=
  List.findSome?_eq_some_iff.symm

/-! ## Declarations under their names -/

namespace Extraction

/-- The declarations whose names are not blank. -/
def named (name : α → String) (ds : List α) : List α := ds.filter fun d => !Text.allBlank (name d)

/-- Declarations under their names. -/
def filed (name : α → String) (ds : List α) : Directory α := .ofList (ds.map fun d => (name d, d))

variable {name : α → String} {ds : List α} {d : α} {n : String}

/-- **What is found under a name is what is called so.** -/
theorem find?_filed_iff (h : (ds.map name).Nodup) : (filed name ds).find? n = some d ↔ d ∈ ds ∧ name d = n := by
  have hpairs : ((ds.map fun d => (name d, d)).map Prod.fst).Nodup := by
    rw [List.map_map]
    exact h
  constructor
  · intro hfind
    have hmem := (Directory.entries_ofList_perm hpairs).mem_iff.1 (Directory.mem_of_find? hfind)
    obtain ⟨d', hd', heq⟩ := List.mem_map.1 hmem
    obtain ⟨hname, rfl⟩ := Prod.mk.inj heq
    exact ⟨hd', hname⟩
  · rintro ⟨hd, rfl⟩
    exact find?_ofList h hd

theorem find?_filed_eq_none_iff (h : (ds.map name).Nodup) :
    (filed name ds).find? n = none ↔ ∀ d ∈ ds, name d ≠ n := by
  rw [Option.eq_none_iff_forall_ne_some]
  constructor
  · exact fun hnone d hd hname => hnone d ((find?_filed_iff h).2 ⟨hd, hname⟩)
  · intro hnone d hfind
    obtain ⟨hd, hname⟩ := (find?_filed_iff h).1 hfind
    exact hnone d hd hname

/-- **Where the parents of a declaration lead**, once all are filed. -/
theorem leadsTo_iff_of_filed (h : (ds.map name).Nodup) (parent? : α → Option String) (hd : d ∈ ds)
    {x : Ancestry α} :
    Ancestry.of ⟨(filed name ds).find?, name, parent?⟩ (filed name ds).size d = x ↔
      Ancestry.LeadsTo ⟨(filed name ds).find?, name, parent?⟩ d x := by
  have hfiled : Ancestry.Kinship.IsFiled ⟨(filed name ds).find?, name, parent?⟩ (filed name ds).names := by
    constructor
    · exact fun hfind => ((find?_filed_iff h).1 hfind).2
    · exact fun hfind => List.mem_map.2 ⟨_, Directory.mem_of_find? hfind, rfl⟩
  have hsize : (filed name ds).size = (filed name ds).names.length := (List.length_map _).symm
  rw [hsize]
  exact Ancestry.of_eq_iff hfiled ((find?_filed_iff h).2 ⟨hd, rfl⟩)

end Extraction

open Extraction

/-! ## Providers -/

namespace ProviderDeclaration

/-- A provider extends another one of those that are declared. A root is none of
them, whatever they are called. -/
structure Extends (ps : List ProviderDeclaration) (p q : ProviderDeclaration) : Prop where
  not_root : ProviderKind.ofRoot? p.parent = none
  isDeclared : q ∈ ps
  name_eq : q.name = p.parent

/-- **The chain of a provider to a root** of some kind, the nearest first. -/
inductive IsChain (ps : List ProviderDeclaration) :
    ProviderDeclaration → List ProviderDeclaration → ProviderKind → Prop
  | root {p : ProviderDeclaration} {kind : ProviderKind} :
      ProviderKind.ofRoot? p.parent = some kind → IsChain ps p [p] kind
  | step {p q : ProviderDeclaration} {chain : List ProviderDeclaration} {kind : ProviderKind} :
      Extends ps p q → IsChain ps q chain kind → IsChain ps p (p :: chain) kind

/-- **What a provider is resolved to.** -/
inductive IsResolvedTo (ps : List ProviderDeclaration) (p : ProviderDeclaration) :
    Except ExtractionError Provider → Prop
  /-- A local database has no authority, whatever is stated on the chain. -/
  | ofLocal {chain : List ProviderDeclaration} : IsChain ps p chain .local →
      IsResolvedTo ps p (.ok { name := p.name, kind := .local, authority := none, count := .projection })
  | ofContent {chain : List ProviderDeclaration} {authority : String} {count : CountStrategy} :
      IsChain ps p chain .content → IsNearest (·.authority) chain authority →
      IsNearest (·.count) chain count ∨ (∀ q ∈ chain, q.count = none) ∧ count = .projection →
      IsResolvedTo ps p (.ok { name := p.name, kind := .content, authority := some authority, count })
  | withoutAuthority {chain : List ProviderDeclaration} : IsChain ps p chain .content →
      (∀ q ∈ chain, q.authority = none) → IsResolvedTo ps p (.error (.missingAuthority p.name))
  /-- The cycle need not lead back to the provider itself. -/
  | cycle {q : ProviderDeclaration} : Relation.ReflTransGen (Extends ps) p q →
      Relation.TransGen (Extends ps) q q → IsResolvedTo ps p (.error (.providerCycle p.name))
  /-- The error is one of the last provider that is reached. -/
  | unknownParent {last : ProviderDeclaration} : Relation.ReflTransGen (Extends ps) p last →
      ProviderKind.ofRoot? last.parent = none → (∀ q ∈ ps, q.name ≠ last.parent) →
      IsResolvedTo ps p (.error (.unknownProviderParent last.name last.parent))

variable {ps : List ProviderDeclaration} {p q : ProviderDeclaration} {chain : List ProviderDeclaration}
  {kind : ProviderKind} {answer : Except ExtractionError Provider}

theorem parent?_eq_none_iff {declared : Directory ProviderDeclaration} :
    (providerKinship declared).parent? p = none ↔ ∃ kind, ProviderKind.ofRoot? p.parent = some kind := by
  rw [providerKinship, ← Option.isSome_iff_exists]
  by_cases hroot : (ProviderKind.ofRoot? p.parent).isSome = true <;> simp [hroot]

theorem parent?_eq_some_iff {declared : Directory ProviderDeclaration} {parent : String} :
    (providerKinship declared).parent? p = some parent ↔
      ProviderKind.ofRoot? p.parent = none ∧ p.parent = parent := by
  rw [providerKinship, ← Option.not_isSome_iff_eq_none]
  by_cases hroot : (ProviderKind.ofRoot? p.parent).isSome = true <;> simp [hroot]

/-- What is found when the names are followed is what is extended. -/
theorem extends_eq (hps : (ps.map (·.name)).Nodup) :
    (providerKinship (filed (·.name) ps)).Extends = Extends ps := by
  funext p q
  refine propext ⟨?_, fun h => ?_⟩
  · rintro ⟨parent, hparent, hfind⟩
    obtain ⟨hroot, rfl⟩ := parent?_eq_some_iff.1 hparent
    obtain ⟨hq, hname⟩ := (find?_filed_iff hps).1 hfind
    exact ⟨hroot, hq, hname⟩
  · exact ⟨p.parent, parent?_eq_some_iff.2 ⟨h.not_root, rfl⟩, (find?_filed_iff hps).2 ⟨h.isDeclared, h.name_eq⟩⟩

/-- A chain to a root is a line of parents that ends there. -/
theorem isLine_iff (hps : (ps.map (·.name)).Nodup) :
    Ancestry.IsLine (providerKinship (filed (·.name) ps)) p chain ↔ ∃ kind, IsChain ps p chain kind := by
  constructor
  · intro h
    induction h with
    | last hnone =>
      obtain ⟨kind, hroot⟩ := parent?_eq_none_iff.1 hnone
      exact ⟨kind, .root hroot⟩
    | @step p q _ _ hparent hfind _ ih =>
      obtain ⟨kind, hchain⟩ := ih
      have hextends : (providerKinship (filed (·.name) ps)).Extends p q := ⟨_, hparent, hfind⟩
      rw [extends_eq hps] at hextends
      exact ⟨kind, .step hextends hchain⟩
  · rintro ⟨kind, h⟩
    induction h with
    | root hroot => exact .last (parent?_eq_none_iff.2 ⟨_, hroot⟩)
    | step hextends _ ih =>
      rw [← extends_eq hps] at hextends
      obtain ⟨parent, hparent, hfind⟩ := hextends
      exact .step hparent hfind ih

/-- The root of a chain is the one that it is followed to. -/
theorem IsChain.rootOf_eq (h : IsChain ps p chain kind) : rootOf chain = some kind := by
  induction h with
  | root hroot => exact hroot
  | @step p q chain kind _ hchain ih =>
    cases hchain with
    | root hroot => exact hroot
    | step => exact ih

/-- **What is bound to the chain of a provider.** -/
theorem IsChain.isResolvedTo_bindProvider (h : IsChain ps p chain kind) :
    IsResolvedTo ps p (bindProvider p.name chain) := by
  unfold bindProvider
  rw [h.rootOf_eq]
  cases kind with
  | «local» => exact .ofLocal h
  | content =>
    dsimp only
    split
    case h_1 hauthority => exact .withoutAuthority h (List.findSome?_eq_none_iff.1 hauthority)
    case h_2 authority hauthority =>
      refine .ofContent h (isNearest_iff.2 hauthority) ?_
      rcases hcount : chain.findSome? (·.count) with _ | count
      · refine .inr ⟨List.findSome?_eq_none_iff.1 hcount, ?_⟩
        rw [hcount]
        rfl
      · refine .inl (isNearest_iff.2 ?_)
        rw [hcount]
        rfl

/-- **A provider is resolved to what its parents lead to.** -/
theorem isResolvedTo_resolveProvider (hps : (ps.map (·.name)).Nodup) (hp : p ∈ ps) :
    IsResolvedTo ps p (resolveProvider (filed (·.name) ps) p) := by
  have hleads : ∀ {x}, Ancestry.of (providerKinship (filed (·.name) ps)) (filed (·.name) ps).size p = x →
      Ancestry.LeadsTo (providerKinship (filed (·.name) ps)) p x := (leadsTo_iff_of_filed hps _ hp).1
  -- one case for each end that a chain of parents can have
  unfold resolveProvider
  split
  case h_1 hof =>
    cases hleads hof with
    | cyclic hpq hq =>
      rw [extends_eq hps] at hpq hq
      exact .cycle hpq hq
  case h_2 hof =>
    cases hleads hof with
    | broken hlast hparent hfind =>
      rw [extends_eq hps] at hlast
      obtain ⟨hroot, rfl⟩ := parent?_eq_some_iff.1 hparent
      exact .unknownParent hlast hroot ((find?_filed_eq_none_iff hps).1 hfind)
  case h_3 hof =>
    cases hleads hof with
    | complete hline =>
      obtain ⟨kind, hchain⟩ := (isLine_iff hps).1 hline
      exact hchain.isResolvedTo_bindProvider

/-- **And nothing else is what it is resolved to.** -/
theorem IsResolvedTo.eq (hps : (ps.map (·.name)).Nodup) (hp : p ∈ ps) (h : IsResolvedTo ps p answer) :
    resolveProvider (filed (·.name) ps) p = answer := by
  have hof : ∀ {x}, Ancestry.LeadsTo (providerKinship (filed (·.name) ps)) p x →
      Ancestry.of (providerKinship (filed (·.name) ps)) (filed (·.name) ps).size p = x :=
    (leadsTo_iff_of_filed hps _ hp).2
  -- wherever there is a chain, the binding is that of the chain
  have hchain {chain kind} (hchain : IsChain ps p chain kind) :
      resolveProvider (filed (·.name) ps) p = bindProvider p.name chain := by
    rw [resolveProvider, hof (.complete ((isLine_iff hps).2 ⟨kind, hchain⟩))]
  cases h with
  | ofLocal hlocal => rw [hchain hlocal, bindProvider, hlocal.rootOf_eq]
  | ofContent hcontent hauthority hcount =>
    rw [hchain hcontent, bindProvider, hcontent.rootOf_eq]
    dsimp only
    rw [isNearest_iff.1 hauthority]
    rcases hcount with hcount | ⟨hcount, rfl⟩
    · rw [isNearest_iff.1 hcount]
      rfl
    · rw [List.findSome?_eq_none_iff.2 hcount]
      rfl
  | withoutAuthority hcontent hauthority =>
    rw [hchain hcontent, bindProvider, hcontent.rootOf_eq]
    dsimp only
    rw [List.findSome?_eq_none_iff.2 hauthority]
  | cycle hpq hq =>
    rw [← extends_eq hps] at hpq hq
    rw [resolveProvider, hof (.cyclic hpq hq)]
  | unknownParent hlast hroot hnone =>
    rw [← extends_eq hps] at hlast
    rw [resolveProvider, hof (.broken hlast (parent?_eq_some_iff.2 ⟨hroot, rfl⟩)
      ((find?_filed_eq_none_iff hps).2 hnone))]

theorem resolveProvider_eq_iff (hps : (ps.map (·.name)).Nodup) (hp : p ∈ ps) :
    resolveProvider (filed (·.name) ps) p = answer ↔ IsResolvedTo ps p answer := by
  refine ⟨?_, fun h => h.eq hps hp⟩
  rintro rfl
  exact isResolvedTo_resolveProvider hps hp

/-- **There is a binding where there is a chain**, on which no provider comes
twice, to the root of local databases, or to the root of content stores with an
authority on it. -/
theorem exists_resolveProvider_iff (hps : (ps.map (·.name)).Nodup) (hp : p ∈ ps) :
    (∃ bound, resolveProvider (filed (·.name) ps) p = .ok bound) ↔
      ∃ chain kind, IsChain ps p chain kind ∧ chain.Nodup ∧
        (kind = .content → ∃ q ∈ chain, ∃ authority, q.authority = some authority) := by
  constructor
  · rintro ⟨bound, hbound⟩
    have hresolved := isResolvedTo_resolveProvider hps hp
    rw [hbound] at hresolved
    have hnodup {chain kind} (hchain : IsChain ps p chain kind) : chain.Nodup :=
      ((isLine_iff hps).2 ⟨kind, hchain⟩).nodup
    cases hresolved with
    | ofLocal hchain => exact ⟨_, _, hchain, hnodup hchain, nofun⟩
    | ofContent hchain hauthority _ =>
      refine ⟨_, _, hchain, hnodup hchain, fun _ => ?_⟩
      obtain ⟨nearer, q, further, rfl, hq, -⟩ := hauthority
      exact ⟨q, List.mem_append_right _ List.mem_cons_self, _, hq⟩
  · rintro ⟨chain, kind, hchain, -, hauthority⟩
    rw [hchain.isResolvedTo_bindProvider.eq hps hp, bindProvider, hchain.rootOf_eq]
    cases kind with
    | «local» => exact ⟨_, rfl⟩
    | content =>
      obtain ⟨q, hq, authority, hstated⟩ := hauthority rfl
      -- some authority on the chain is the nearest one
      have hsome : (chain.findSome? (·.authority)).isSome = true := by
        rw [List.findSome?_isSome_iff]
        exact ⟨q, hq, Option.isSome_iff_exists.2 ⟨authority, hstated⟩⟩
      obtain ⟨nearest, hnearest⟩ := Option.isSome_iff_exists.1 hsome
      dsimp only
      rw [hnearest]
      exact ⟨_, rfl⟩

end ProviderDeclaration

/-! ## Models -/

namespace ModelDeclaration

/-- A model extends another one of those that are declared. -/
structure Extends (ms : List ModelDeclaration) (m n : ModelDeclaration) : Prop where
  isDeclared : n ∈ ms
  parent_eq : m.parent = some n.name

/-- **What comes of following a model.** -/
inductive IsFollowedTo (ms : List ModelDeclaration) (m : ModelDeclaration) :
    Except ExtractionError (List ModelDeclaration) → Prop
  | lineage {chain : List ModelDeclaration} : IsLineage ms m chain → IsFollowedTo ms m (.ok chain)
  | cycle {n : ModelDeclaration} : Relation.ReflTransGen (Extends ms) m n →
      Relation.TransGen (Extends ms) n n → IsFollowedTo ms m (.error (.inheritanceCycle m.name))
  | unknownParent {last : ModelDeclaration} {parent : String} : Relation.ReflTransGen (Extends ms) m last →
      last.parent = some parent → (∀ n ∈ ms, n.name ≠ parent) →
      IsFollowedTo ms m (.error (.unknownParentModel last.name parent))

variable {ms : List ModelDeclaration} {m : ModelDeclaration} {chain : List ModelDeclaration}
  {answer : Except ExtractionError (List ModelDeclaration)}

theorem extends_eq (hms : (ms.map (·.name)).Nodup) :
    (modelKinship (filed (·.name) ms)).Extends = Extends ms := by
  funext m n
  refine propext ⟨?_, fun h => ?_⟩
  · rintro ⟨parent, hparent, hfind⟩
    obtain ⟨hn, rfl⟩ := (find?_filed_iff hms).1 hfind
    exact ⟨hn, hparent⟩
  · exact ⟨n.name, h.parent_eq, (find?_filed_iff hms).2 ⟨h.isDeclared, rfl⟩⟩

theorem isLine_iff (hms : (ms.map (·.name)).Nodup) :
    Ancestry.IsLine (modelKinship (filed (·.name) ms)) m chain ↔ IsLineage ms m chain := by
  constructor
  · intro h
    induction h with
    | last hnone => exact .root hnone
    | step hparent hfind _ ih =>
      obtain ⟨hn, rfl⟩ := (find?_filed_iff hms).1 hfind
      exact .child hparent hn ih
  · intro h
    induction h with
    | root hnone => exact .last hnone
    | child hparent hn _ ih => exact .step hparent ((find?_filed_iff hms).2 ⟨hn, rfl⟩) ih

/-- **A model is followed to where its parents lead**, and to nothing else. -/
theorem lineage_eq_iff (hms : (ms.map (·.name)).Nodup) (hm : m ∈ ms) :
    lineage (filed (·.name) ms) m = answer ↔ IsFollowedTo ms m answer := by
  have hleads : ∀ {x}, Ancestry.of (modelKinship (filed (·.name) ms)) (filed (·.name) ms).size m = x ↔
      Ancestry.LeadsTo (modelKinship (filed (·.name) ms)) m x := leadsTo_iff_of_filed hms _ hm
  constructor
  · rintro rfl
    unfold lineage
    split
    case h_1 hof =>
      cases hleads.1 hof with
      | cyclic hmn hn =>
        rw [extends_eq hms] at hmn hn
        exact .cycle hmn hn
    case h_2 hof =>
      cases hleads.1 hof with
      | broken hlast hparent hfind =>
        rw [extends_eq hms] at hlast
        exact .unknownParent hlast hparent ((find?_filed_eq_none_iff hms).1 hfind)
    case h_3 hof =>
      cases hleads.1 hof with
      | complete hline => exact .lineage ((isLine_iff hms).1 hline)
  · intro h
    cases h with
    | lineage hchain => rw [lineage, hleads.2 (.complete ((isLine_iff hms).2 hchain))]
    | cycle hmn hn =>
      rw [← extends_eq hms] at hmn hn
      rw [lineage, hleads.2 (.cyclic hmn hn)]
    | unknownParent hlast hparent hnone =>
      rw [← extends_eq hms] at hlast
      rw [lineage, hleads.2 (.broken hlast hparent ((find?_filed_eq_none_iff hms).2 hnone))]

/-- **There is a lineage where every parent on the way is declared** and no model
comes twice. -/
theorem exists_lineage_iff (hms : (ms.map (·.name)).Nodup) (hm : m ∈ ms) :
    (∃ chain, lineage (filed (·.name) ms) m = .ok chain) ↔ ∃ chain, IsLineage ms m chain ∧ chain.Nodup := by
  constructor
  · rintro ⟨chain, hchain⟩
    cases (lineage_eq_iff hms hm).1 hchain with
    | lineage hlineage => exact ⟨chain, hlineage, ((isLine_iff hms).2 hlineage).nodup⟩
  · rintro ⟨chain, hlineage, -⟩
    exact ⟨chain, (lineage_eq_iff hms hm).2 (.lineage hlineage)⟩

end ModelDeclaration

/-- **Chains of parents are followed exactly.** Among providers that are called
differently each one is resolved to what its chain says, and to nothing else: a
binding, or one error that tells where the chain leads instead. The same holds of
models and their lineages. -/
theorem chains_are_followed {ps : List ProviderDeclaration} {ms : List ModelDeclaration}
    (hps : ((named (·.name) ps).map (·.name)).Nodup) (hms : ((named (·.name) ms).map (·.name)).Nodup) :
    (∀ p ∈ named (·.name) ps,
      (∀ answer, resolveProvider (providerDirectory ps) p = answer ↔
        p.IsResolvedTo (named (·.name) ps) answer) ∧
      ((∃ bound, resolveProvider (providerDirectory ps) p = .ok bound) ↔
        ∃ chain kind, p.IsChain (named (·.name) ps) chain kind ∧ chain.Nodup ∧
          (kind = .content → ∃ q ∈ chain, ∃ authority, q.authority = some authority))) ∧
    ∀ m ∈ named (·.name) ms,
      (∀ answer, lineage (modelDirectory ms) m = answer ↔ m.IsFollowedTo (named (·.name) ms) answer) ∧
      ((∃ chain, lineage (modelDirectory ms) m = .ok chain) ↔
        ∃ chain, m.IsLineage (named (·.name) ms) chain ∧ chain.Nodup) :=
  ⟨fun _ hp => ⟨fun _ => ProviderDeclaration.resolveProvider_eq_iff hps hp,
      ProviderDeclaration.exists_resolveProvider_iff hps hp⟩,
    fun _ hm => ⟨fun _ => ModelDeclaration.lineage_eq_iff hms hm, ModelDeclaration.exists_lineage_iff hms hm⟩⟩

/-- Providers of an address book. The phone takes its authority from the base and
says itself how to count. The two halves extend each other, and the third one
extends them without being part of the cycle. -/
def chainedProviders : List ProviderDeclaration :=
  [⟨"base", ProviderKind.contentRoot, some "com.example.contacts", none⟩,
    ⟨"phone", "base", none, some .countColumn⟩, ⟨"left", "right", none, none⟩,
    ⟨"right", "left", none, none⟩, ⟨"third", "left", none, none⟩]

/-- Friends are persons, and what these extend is not declared. -/
def chainedModels : List ModelDeclaration :=
  [{ name := "Person", parent := some "Entity" }, { name := "Friend", parent := some "Person" }]

theorem chains_are_followed_contacts :
    ((named (·.name) chainedProviders).map (·.name)).Nodup ∧
    ((named (·.name) chainedModels).map (·.name)).Nodup ∧
    resolveProvider (providerDirectory chainedProviders) ⟨"phone", "base", none, some .countColumn⟩ =
      .ok ⟨"phone", .content, some "com.example.contacts", .countColumn⟩ ∧
    resolveProvider (providerDirectory chainedProviders) ⟨"third", "left", none, none⟩ =
      .error (.providerCycle "third") ∧
    lineage (modelDirectory chainedModels) { name := "Friend", parent := some "Person" } =
      .error (.unknownParentModel "Person" "Entity") := by
  have hps : named (·.name) chainedProviders = chainedProviders := by decide +kernel
  have hms : named (·.name) chainedModels = chainedModels := by decide +kernel
  have hpnames : ((named (·.name) chainedProviders).map (·.name)).Nodup := by decide +kernel
  have hmnames : ((named (·.name) chainedModels).map (·.name)).Nodup := by decide +kernel
  obtain ⟨hproviders, hmodels⟩ := chains_are_followed hpnames hmnames
  rw [hps] at hproviders
  rw [hms] at hmodels
  refine ⟨hpnames, hmnames, ?_, ?_, ?_⟩
  · have hextends : ProviderDeclaration.Extends chainedProviders ⟨"phone", "base", none, some .countColumn⟩
        ⟨"base", ProviderKind.contentRoot, some "com.example.contacts", none⟩ :=
      ⟨by decide +kernel, by decide, rfl⟩
    refine ((hproviders _ (by decide)).1 _).2 (.ofContent (.step hextends (.root (by decide +kernel))) ?_ ?_)
    · exact isNearest_iff.2 rfl
    · exact .inl (isNearest_iff.2 rfl)
  · have hthird : ProviderDeclaration.Extends chainedProviders ⟨"third", "left", none, none⟩
        ⟨"left", "right", none, none⟩ := ⟨by decide +kernel, by decide, rfl⟩
    have hleft : ProviderDeclaration.Extends chainedProviders ⟨"left", "right", none, none⟩
        ⟨"right", "left", none, none⟩ := ⟨by decide +kernel, by decide, rfl⟩
    have hright : ProviderDeclaration.Extends chainedProviders ⟨"right", "left", none, none⟩
        ⟨"left", "right", none, none⟩ := ⟨by decide +kernel, by decide, rfl⟩
    exact ((hproviders _ (by decide)).1 _).2 (.cycle (.single hthird) (.head hleft (.single hright)))
  · have hfriend : ModelDeclaration.Extends chainedModels { name := "Friend", parent := some "Person" }
        { name := "Person", parent := some "Entity" } := ⟨by decide, rfl⟩
    exact ((hmodels _ (by decide)).1 _).2 (.unknownParent (.single hfriend) rfl (by decide))

end TypedTables

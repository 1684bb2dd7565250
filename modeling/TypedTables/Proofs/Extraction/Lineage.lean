import Mathlib.Data.List.Perm.Subperm
import Mathlib.Logic.Relation
import TypedTables.Extraction.Model
import TypedTables.Proofs.Extraction.Registry
/-!
# TypedTables — chains of parents

Every declaration has one parent at most, so what stands above it is settled
before anything is followed: the chain ends in a declaration without a parent, or
in one whose parent is unknown, or it runs into a cycle, which the start need not
be part of. Following the chain with a list of the names that were passed finds
out which, and there are always enough steps for it.
-/

namespace TypedTables

namespace Ancestry

variable {α : Type} {k : Kinship α}

/-! ## Chains that end -/

/-- A chain of parents that ends, from a declaration upwards. -/
inductive IsLine (k : Kinship α) : α → List α → Prop
  /-- There is no further parent. -/
  | last {a : α} : k.parent? a = none → IsLine k a [a]
  /-- The parent is found, and its chain ends. -/
  | step {a b : α} {parent : String} {line : List α} :
      k.parent? a = some parent → k.find? parent = some b → IsLine k b line → IsLine k a (a :: line)

/-- What is followed up from the last member of a chain is its line, by
induction on the steps that are left. -/
theorem isLine_of_above {names : List String} {chain found : List α} {a : α} {fuel : Nat}
    (h : above k names chain a fuel = .complete found) :
    ∃ line, IsLine k a line ∧ found = chain.reverse ++ line := by
  induction fuel generalizing names chain a with
  | zero => cases h
  | succ fuel ih =>
    rw [above] at h
    rcases hparent : k.parent? a with _ | parent
    · simp only [hparent] at h
      cases h
      exact ⟨[a], .last hparent, List.reverse_cons⟩
    · rcases hfind : k.find? parent with _ | b
      · simp only [hparent, hfind] at h
        cases h
      · simp only [hparent, hfind] at h
        -- a name that was passed already ends the search, so the chain has not come back to itself
        split at h
        · cases h
        obtain ⟨line, hline, hfound⟩ := ih h
        refine ⟨a :: line, .step hparent hfind hline, ?_⟩
        rw [hfound, List.reverse_cons, List.append_assoc]
        rfl

theorem isLine_of_complete {size : Nat} {a : α} {found : List α}
    (h : Ancestry.of k size a = .complete found) : IsLine k a found := by
  obtain ⟨line, hline, hfound⟩ := isLine_of_above h
  rw [hfound]
  exact hline

/-! ## Parents -/

variable {a b c : α}

/-- One declaration extends another one, which is found. -/
def Kinship.Extends (k : Kinship α) (a b : α) : Prop :=
  ∃ parent, k.parent? a = some parent ∧ k.find? parent = some b

/-- **A declaration has one parent at most.** -/
theorem Kinship.Extends.unique (h : k.Extends a b) (h' : k.Extends a c) : b = c := by
  obtain ⟨parent, hparent, hb⟩ := h
  obtain ⟨parent', hparent', hc⟩ := h'
  obtain rfl : parent = parent' := Option.some.inj (hparent.symm.trans hparent')
  exact Option.some.inj (hb.symm.trans hc)

/-- Nothing that is found stands above a declaration. -/
def Kinship.IsTop (k : Kinship α) (a : α) : Prop := ∀ b, ¬ k.Extends a b

theorem isTop_of_parent?_eq_none (h : k.parent? a = none) : k.IsTop a := by
  rintro b ⟨parent, hparent, -⟩
  rw [h] at hparent
  nomatch hparent

theorem isTop_of_find?_eq_none {parent : String} (h : k.parent? a = some parent)
    (hfind : k.find? parent = none) : k.IsTop a := by
  rintro b ⟨parent', hparent, hb⟩
  obtain rfl : parent = parent' := Option.some.inj (h.symm.trans hparent)
  rw [hfind] at hb
  nomatch hb

/-- Whatever stands above a top is the top. -/
theorem Kinship.IsTop.eq (h : k.IsTop a) (hab : Relation.ReflTransGen k.Extends a b) : a = b := by
  rcases hab.cases_head with rfl | ⟨c, hac, -⟩
  · rfl
  · exact absurd hac (h c)

/-- Of two declarations above a third one stands above the other. -/
theorem total_of_extends (hab : Relation.ReflTransGen k.Extends a b)
    (hac : Relation.ReflTransGen k.Extends a c) :
    Relation.ReflTransGen k.Extends b c ∨ Relation.ReflTransGen k.Extends c b :=
  Relation.ReflTransGen.total_of_right_unique (fun _ _ _ => Kinship.Extends.unique) hab hac

/-- **A chain has one top.** -/
theorem top_unique (hab : Relation.ReflTransGen k.Extends a b) (hb : k.IsTop b)
    (hac : Relation.ReflTransGen k.Extends a c) (hc : k.IsTop c) : b = c := by
  rcases total_of_extends hab hac with hbc | hcb
  · exact hb.eq hbc
  · exact (hc.eq hcb).symm

/-- What stands above a cycle is on it, by induction on the steps that lead there. -/
theorem cycle_of_extends (hb : Relation.TransGen k.Extends b b) (hbc : Relation.ReflTransGen k.Extends b c) :
    Relation.TransGen k.Extends c c := by
  induction hbc with
  | refl => exact hb
  | @tail c d _ hcd ih =>
    -- the cycle leaves `c` for the only parent that there is
    obtain ⟨d', hcd', hback⟩ := Relation.TransGen.head'_iff.1 ih
    obtain rfl := hcd.unique hcd'
    exact .tail' hback hcd

/-- **A chain that runs into a cycle has no top.** -/
theorem not_isTop_of_cycle (hab : Relation.ReflTransGen k.Extends a b) (hb : Relation.TransGen k.Extends b b)
    (hac : Relation.ReflTransGen k.Extends a c) : ¬ k.IsTop c := by
  intro hc
  have hcycle : Relation.TransGen k.Extends c c := by
    rcases total_of_extends hab hac with hbc | hcb
    · exact cycle_of_extends hb hbc
    · obtain rfl := hc.eq hcb
      exact hb
  obtain ⟨d, hcd, -⟩ := Relation.TransGen.head'_iff.1 hcycle
  exact hc d hcd

/-! ## Where a chain leads -/

/-- **Where a chain of parents leads**, said of the parents alone. -/
inductive LeadsTo (k : Kinship α) (a : α) : Ancestry α → Prop
  | complete {line : List α} : IsLine k a line → LeadsTo k a (.complete line)
  | broken {last : α} {parent : String} : Relation.ReflTransGen k.Extends a last →
    k.parent? last = some parent → k.find? parent = none → LeadsTo k a (.broken last parent)
  | cyclic {b : α} : Relation.ReflTransGen k.Extends a b → Relation.TransGen k.Extends b b →
    LeadsTo k a .cyclic

theorem IsLine.unique {line line' : List α} (h : IsLine k a line) (h' : IsLine k a line') : line = line' := by
  induction h generalizing line' with
  | last hnone =>
    cases h' with
    | last => rfl
    | step hparent => nomatch hnone.symm.trans hparent
  | step hparent hfind _ ih =>
    cases h' with
    | last hnone => nomatch hnone.symm.trans hparent
    | step hparent' hfind' hline' =>
      obtain rfl := Kinship.Extends.unique ⟨_, hparent, hfind⟩ ⟨_, hparent', hfind'⟩
      rw [ih hline']

theorem IsLine.reaches {line : List α} (h : IsLine k a line) (hb : b ∈ line) :
    Relation.ReflTransGen k.Extends a b := by
  induction h with
  | last => rw [List.mem_singleton.1 hb]
  | step hparent hfind _ ih =>
    rcases List.mem_cons.1 hb with rfl | hb
    · exact .refl
    · exact .head ⟨_, hparent, hfind⟩ (ih hb)

theorem IsLine.exists_top {line : List α} (h : IsLine k a line) :
    ∃ top, Relation.ReflTransGen k.Extends a top ∧ k.parent? top = none := by
  induction h with
  | last hnone => exact ⟨_, .refl, hnone⟩
  | step hparent hfind _ ih =>
    obtain ⟨top, hreach, hnone⟩ := ih
    exact ⟨top, .head ⟨_, hparent, hfind⟩ hreach, hnone⟩

/-- A chain that ends runs into no cycle. -/
theorem IsLine.not_cycle {line : List α} (h : IsLine k a line) (hab : Relation.ReflTransGen k.Extends a b) :
    ¬ Relation.TransGen k.Extends b b := by
  obtain ⟨top, hreach, hnone⟩ := h.exists_top
  exact fun hb => not_isTop_of_cycle hab hb hreach (isTop_of_parent?_eq_none hnone)

/-- Nor does it come to a parent that is unknown. -/
theorem IsLine.find?_ne_none {line : List α} (h : IsLine k a line) (hab : Relation.ReflTransGen k.Extends a b)
    {parent : String} (hparent : k.parent? b = some parent) : k.find? parent ≠ none := by
  intro hfind
  obtain ⟨top, hreach, hnone⟩ := h.exists_top
  obtain rfl := top_unique hreach (isTop_of_parent?_eq_none hnone) hab (isTop_of_find?_eq_none hparent hfind)
  nomatch hnone.symm.trans hparent

/-- **Nothing comes twice on a chain that ends.** -/
theorem IsLine.nodup {line : List α} (h : IsLine k a line) : line.Nodup := by
  induction h with
  | last => exact List.nodup_singleton _
  | @step a b _ line hparent hfind hline ih =>
    refine List.nodup_cons.2 ⟨fun hmem => ?_, ih⟩
    have hcycle : Relation.TransGen k.Extends a a := .head' ⟨_, hparent, hfind⟩ (hline.reaches hmem)
    exact (IsLine.step hparent hfind hline).not_cycle .refl hcycle

/-- **A chain leads to one end.** -/
theorem LeadsTo.unique {x y : Ancestry α} (h : LeadsTo k a x) (h' : LeadsTo k a y) : x = y := by
  rcases h with hline | ⟨hlast, hparent, hfind⟩ | ⟨hab, hb⟩ <;>
    rcases h' with hline' | ⟨hlast', hparent', hfind'⟩ | ⟨hab', hb'⟩
  case complete.complete => rw [hline.unique hline']
  case complete.broken => exact absurd hfind' (hline.find?_ne_none hlast' hparent')
  case complete.cyclic => exact absurd hb' (hline.not_cycle hab')
  case broken.complete => exact absurd hfind (hline'.find?_ne_none hlast hparent)
  case broken.broken =>
    obtain rfl := top_unique hlast (isTop_of_find?_eq_none hparent hfind) hlast'
      (isTop_of_find?_eq_none hparent' hfind')
    rw [Option.some.inj (hparent.symm.trans hparent')]
  case broken.cyclic => exact absurd (isTop_of_find?_eq_none hparent hfind) (not_isTop_of_cycle hab' hb' hlast)
  case cyclic.complete => exact absurd hb (hline'.not_cycle hab)
  case cyclic.broken => exact absurd (isTop_of_find?_eq_none hparent' hfind') (not_isTop_of_cycle hab hb hlast')
  case cyclic.cyclic => rfl

/-! ## Following the names -/

/-- **Declarations that are found under their own names**, which are some
names. -/
structure Kinship.IsFiled (k : Kinship α) (names : List String) : Prop where
  name_eq : ∀ {n b}, k.find? n = some b → k.name b = n
  mem_names : ∀ {n b}, k.find? n = some b → n ∈ names

theorem broken_of_above {names : List String} {chain : List α} {last : α} {parent : String} {fuel : Nat}
    (h : above k names chain a fuel = .broken last parent) :
    Relation.ReflTransGen k.Extends a last ∧ k.parent? last = some parent ∧ k.find? parent = none := by
  induction fuel generalizing names chain a with
  | zero => cases h
  | succ fuel ih =>
    rw [above] at h
    rcases hparent : k.parent? a with _ | parent
    · simp only [hparent] at h
      cases h
    · rcases hfind : k.find? parent with _ | b
      · simp only [hparent, hfind] at h
        cases h
        exact ⟨.refl, hparent, hfind⟩
      · simp only [hparent, hfind] at h
        split at h
        · cases h
        obtain ⟨hreach, hlast⟩ := ih h
        exact ⟨.head ⟨parent, hparent, hfind⟩ hreach, hlast⟩

/-- **What looks like a cycle is one.** The names that were passed are different
and are all names of declarations, so the steps never run out; and every
declaration that was passed leads to the one that is come to. -/
theorem cycle_of_above {names passed : List String} (hk : k.IsFiled names) {chain : List α} {fuel : Nat}
    (hnodup : passed.Nodup)
    (hpassed : ∀ n ∈ passed, ∃ c, k.find? n = some c ∧ Relation.ReflTransGen k.Extends c a)
    (hfuel : names.length < passed.length + fuel) (h : above k passed chain a fuel = .cyclic) :
    ∃ b, Relation.ReflTransGen k.Extends a b ∧ Relation.TransGen k.Extends b b := by
  induction fuel generalizing passed chain a with
  | zero =>
    have hsub : passed ⊆ names := fun n hn => by
      obtain ⟨c, hc, -⟩ := hpassed n hn
      exact hk.mem_names hc
    have hlength := (hnodup.subperm hsub).length_le
    omega
  | succ fuel ih =>
    rw [above] at h
    rcases hparent : k.parent? a with _ | parent
    · simp only [hparent] at h
      cases h
    rcases hfind : k.find? parent with _ | b
    · simp only [hparent, hfind] at h
      cases h
    simp only [hparent, hfind] at h
    have hab : k.Extends a b := ⟨parent, hparent, hfind⟩
    obtain rfl : k.name b = parent := hk.name_eq hfind
    split at h
    case isTrue hmem =>
      -- the declaration that was passed under this name is the parent
      obtain ⟨c, hc, hca⟩ := hpassed _ (List.contains_iff_mem.1 hmem)
      obtain rfl : b = c := Option.some.inj (hfind.symm.trans hc)
      exact ⟨b, .single hab, .tail' hca hab⟩
    case isFalse hnew =>
      have hnew : k.name b ∉ passed := fun hmem => hnew (List.contains_iff_mem.2 hmem)
      have hpassed' : ∀ n ∈ k.name b :: passed, ∃ c, k.find? n = some c ∧ Relation.ReflTransGen k.Extends c b := by
        intro n hn
        rcases List.mem_cons.1 hn with rfl | hn
        · exact ⟨b, hfind, .refl⟩
        · obtain ⟨c, hc, hca⟩ := hpassed n hn
          exact ⟨c, hc, hca.tail hab⟩
      have hfuel' : names.length < (k.name b :: passed).length + fuel := by
        rw [List.length_cons]
        omega
      obtain ⟨c, hbc, hc⟩ := ih (List.nodup_cons.2 ⟨hnew, hnodup⟩) hpassed' hfuel' h
      exact ⟨c, .head hab hbc, hc⟩

/-- **Following the names finds out where they lead.** -/
theorem leadsTo_of {names : List String} (hk : k.IsFiled names) (ha : k.find? (k.name a) = some a) :
    LeadsTo k a (Ancestry.of k names.length a) := by
  rcases hof : Ancestry.of k names.length a with line | ⟨last, parent⟩ | _
  · exact .complete (isLine_of_complete hof)
  · obtain ⟨hreach, hparent, hfind⟩ := broken_of_above hof
    exact .broken hreach hparent hfind
  · have hpassed : ∀ n ∈ [k.name a], ∃ c, k.find? n = some c ∧ Relation.ReflTransGen k.Extends c a := by
      intro n hn
      rw [List.mem_singleton.1 hn]
      exact ⟨a, ha, .refl⟩
    have hfuel : names.length < [k.name a].length + (names.length + 1) := by
      rw [List.length_singleton]
      omega
    obtain ⟨b, hab, hb⟩ := cycle_of_above hk (List.nodup_singleton _) hpassed hfuel hof
    exact .cyclic hab hb

theorem of_eq_iff {names : List String} (hk : k.IsFiled names) (ha : k.find? (k.name a) = some a)
    {x : Ancestry α} : Ancestry.of k names.length a = x ↔ LeadsTo k a x := by
  constructor
  · rintro rfl
    exact leadsTo_of hk ha
  · exact (leadsTo_of hk ha).unique

end Ancestry

/-! ## Lineages

`IsLineage` says what a model extends without following anything: the model,
then the declared model that it names as its parent with what that one
extends, up to a model that names none. Where declared models are called
differently a model has one lineage at most, and it is the one that is
followed up when there is no error on the way. -/

/-- **What a model extends**, the nearest first: among the declared models `ms`,
the model itself and then, if it names a parent, the lineage of that one. -/
inductive ModelDeclaration.IsLineage (ms : List ModelDeclaration) :
    ModelDeclaration → List ModelDeclaration → Prop
  /-- A model that extends none. -/
  | root {m : ModelDeclaration} : m.parent = none → IsLineage ms m [m]
  /-- A model that extends a declared one. -/
  | child {m parent : ModelDeclaration} {chain : List ModelDeclaration} :
      m.parent = some parent.name → parent ∈ ms → IsLineage ms parent chain → IsLineage ms m (m :: chain)

namespace ModelDeclaration

variable {ms : List ModelDeclaration} {m : ModelDeclaration} {chain chain' : List ModelDeclaration}

/-- **There is one lineage at most**, where names are different. -/
theorem IsLineage.unique (hnames : (ms.map (·.name)).Nodup) (h : IsLineage ms m chain)
    (h' : IsLineage ms m chain') : chain = chain' := by
  induction h generalizing chain' with
  | root hnone =>
    cases h' with
    | root => rfl
    | child hsome =>
      rw [hnone] at hsome
      cases hsome
  | @child m parent chain hparent hmem _ ih =>
    cases h' with
    | root hnone =>
      rw [hparent] at hnone
      cases hnone
    | @child _ parent' chain' hparent' hmem' hchain' =>
      have hname : parent.name = parent'.name := Option.some.inj (hparent.symm.trans hparent')
      obtain rfl : parent = parent' := List.inj_on_of_nodup_map hnames hmem hmem' hname
      rw [ih hchain']

end ModelDeclaration

namespace Extraction

variable {ms : List ModelDeclaration} {m : ModelDeclaration} {chain : List ModelDeclaration}

/-- What is followed up is a line of parents, also where names come twice. -/
theorem isLine_of_lineage {declared : Directory ModelDeclaration} (h : lineage declared m = .ok chain) :
    Ancestry.IsLine (modelKinship declared) m chain := by
  unfold lineage at h
  split at h
  · cases h
  · cases h
  case h_3 hcomplete =>
    obtain rfl := Except.ok.inj h
    exact Ancestry.isLine_of_complete hcomplete

/-- **The lineage that is followed up is the model's own.** -/
theorem isLineage_of_lineage (hnames : (ms.map (·.name)).Nodup)
    (h : lineage (modelDirectory ms) m = .ok chain) : ModelDeclaration.IsLineage ms m chain := by
  have hline := isLine_of_lineage h
  clear h
  induction hline with
  | last hnone => exact .root hnone
  | step hparent hfind _ ih =>
    obtain ⟨hmem, rfl⟩ := mem_of_find?_filed hnames hfind
    exact .child hparent hmem ih

end Extraction

end TypedTables

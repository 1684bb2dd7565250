import Mathlib.Data.List.Perm.Basic
import Mathlib.Tactic.Common
import TypedTables.Registry.Directory
/-!
# TypedTables — what is filed in a directory

A directory filled with pairs of different names holds these pairs and
nothing else, each under its name, whatever the order in which they were
filed.
-/

namespace TypedTables

namespace Directory

variable {α : Type} {name : String} {entry : α} {es pairs : List (String × α)} {d : Directory α}

/-- **A new name adds an entry**, wherever its place is. -/
theorem insertEntry_perm (h : name ∉ es.map Prod.fst) :
    (insertEntry name entry es).Perm ((name, entry) :: es) := by
  induction es with
  | nil => exact .refl _
  | cons e es ih =>
    obtain ⟨n, x⟩ := e
    have hne : name ≠ n := fun he => h (he ▸ List.mem_cons_self)
    have hes : name ∉ es.map Prod.fst := fun he => h (List.mem_cons_of_mem n he)
    unfold insertEntry
    split
    · exact .refl _
    case h_2 hc => exact absurd (eq_of_compare hc) hne
    · exact ((ih hes).cons (n, x)).trans (.swap _ _ _)

theorem insert_perm (h : name ∉ d.names) :
    (d.insert name entry).entries.Perm ((name, entry) :: d.entries) :=
  insertEntry_perm h

/-- **Pairs of different names are filed as they are.** -/
theorem entries_ofList_perm (h : (pairs.map Prod.fst).Nodup) : (ofList pairs).entries.Perm pairs := by
  -- the induction is over directories that have none of the names yet
  have hfold : ∀ (d : Directory α), (∀ n ∈ pairs.map Prod.fst, n ∉ d.names) →
      (pairs.foldl (fun d p => d.insert p.1 p.2) d).entries.Perm
        (d.entries ++ pairs) := by
    induction pairs with
    | nil =>
      intro d _
      rw [List.append_nil]
      exact .refl _
    | cons p pairs ih =>
      obtain ⟨n, x⟩ := p
      rw [List.map_cons, List.nodup_cons] at h
      intro d hd
      have hn : n ∉ d.names := hd n List.mem_cons_self
      have hins : (d.insert n x).entries.Perm ((n, x) :: d.entries) := insert_perm hn
      have hnew : ∀ m ∈ pairs.map Prod.fst, m ∉ (d.insert n x).names := by
        intro m hm hmem
        have hcases := (hins.map Prod.fst).mem_iff.1 hmem
        rcases List.mem_cons.1 hcases with rfl | hold
        · exact h.1 hm
        · exact hd m (List.mem_cons_of_mem n hm) hold
      refine (ih h.2 _ hnew).trans ?_
      refine (hins.append_right pairs).trans ?_
      exact List.perm_middle.symm
  exact hfold empty fun n _ hmem => nomatch hmem

theorem lookup_cons_of_ne {other : String} (h : other ≠ name) :
    ((name, entry) :: es).lookup other = es.lookup other := by
  rw [List.lookup_cons, beq_eq_false_iff_ne.2 h]

theorem lookup_insertEntry (name other : String) (entry : α) (es : List (String × α)) :
    (insertEntry name entry es).lookup other = if other = name then some entry else es.lookup other := by
  induction es with
  | nil =>
    by_cases h : other = name
    · simp [insertEntry, h]
    · rw [insertEntry, lookup_cons_of_ne h, if_neg h]
  | cons e es ih =>
    obtain ⟨n, x⟩ := e
    simp only [insertEntry]
    -- the new entry goes before this one, in its place or behind it
    split
    case h_1 hc =>
      by_cases h : other = name
      · simp [h]
      · rw [lookup_cons_of_ne h, if_neg h]
    case h_2 hc =>
      obtain rfl := eq_of_compare hc
      by_cases h : other = name
      · simp [h]
      · rw [lookup_cons_of_ne h, lookup_cons_of_ne h, if_neg h]
    case h_3 hc =>
      have hne : name ≠ n := by
        rintro rfl
        have hself : compare name name = .eq := Std.ReflOrd.compare_self
        rw [hself] at hc
        cases hc
      by_cases hn : other = n
      · have hother : other ≠ name := fun he => hne (he.symm.trans hn)
        simp [hn, Ne.symm hne]
      · rw [lookup_cons_of_ne hn, lookup_cons_of_ne hn]
        exact ih

/-- **The last entry filed under a name is found**, and others stay. -/
theorem find?_insert (d : Directory α) (name other : String) (entry : α) :
    (d.insert name entry).find? other = if other = name then some entry else d.find? other :=
  lookup_insertEntry name other entry d.entries

/-- Entries of different names are found under their names. -/
theorem find?_of_mem (hd : d.names.Nodup) (h : (name, entry) ∈ d.entries) :
    d.find? name = some entry := by
  unfold find?
  unfold names at hd
  generalize d.entries = es at hd h
  induction es with
  | nil => nomatch h
  | cons e es ih =>
    obtain ⟨n, x⟩ := e
    rw [List.map_cons, List.nodup_cons] at hd
    rcases List.mem_cons.1 h with he | hes
    · obtain ⟨rfl, rfl⟩ := Prod.mk.inj he
      simp
    · have hne : name ≠ n := by
        rintro rfl
        exact hd.1 (List.mem_map.2 ⟨_, hes, rfl⟩)
      rw [lookup_cons_of_ne hne]
      exact ih hd.2 hes

/-- What is found under a name is filed there. -/
theorem mem_of_find? (h : d.find? name = some entry) : (name, entry) ∈ d.entries := by
  unfold find? at h
  generalize d.entries = es at h
  induction es with
  | nil => nomatch h
  | cons e es ih =>
    obtain ⟨n, x⟩ := e
    by_cases hn : name = n
    · subst hn
      rw [List.lookup_cons_self] at h
      obtain rfl := Option.some.inj h
      exact List.mem_cons_self
    · rw [lookup_cons_of_ne hn] at h
      exact List.mem_cons_of_mem _ (ih h)

/-- Every name of a list of pairs is the name of an entry. -/
theorem mem_names_ofList (h : name ∈ pairs.map Prod.fst) : name ∈ (ofList pairs).names := by
  have hfold : ∀ (d : Directory α), name ∈ pairs.map Prod.fst ∨ (d.find? name).isSome = true →
      ((pairs.foldl (fun d p => d.insert p.1 p.2) d).find? name).isSome = true := by
    clear h
    induction pairs with
    | nil => exact fun d h => h.resolve_left nofun
    | cons p pairs ih =>
      obtain ⟨n, x⟩ := p
      intro d h
      refine ih (d.insert n x) ?_
      rw [find?_insert]
      by_cases hn : name = n
      · rw [if_pos hn]
        exact .inr rfl
      · rw [if_neg hn]
        rcases h with h | h
        · exact .inl ((List.mem_cons.1 h).resolve_left hn)
        · exact .inr h
  obtain ⟨x, hx⟩ := Option.isSome_iff_exists.1 (hfold empty (.inl h))
  exact List.mem_map.2 ⟨(name, x), mem_of_find? hx, rfl⟩

end Directory

/-! ## Directories in order

The names of a directory are in strict order. Nothing is left to how it was
filled: the same pairs under different names make the same directory, whichever
of them came first. -/

namespace Directory

variable {α : Type} {name : String} {entry : α} {es pairs pairs' : List (String × α)}
  {d : Directory α}

theorem Precedes.asymm {a b : String × α} (hab : Precedes a b) : ¬Precedes b a := by
  intro hba
  have hself : compare a.1 a.1 = .lt := hab.trans hba
  rw [Std.ReflOrd.compare_self] at hself
  cases hself

/-- Names in order are different. -/
theorem nodup_names (d : Directory α) : d.names.Nodup := by
  refine List.pairwise_map.2 (d.isSorted.imp fun {a b} hab he => ?_)
  have hself : compare a.1 b.1 = .lt := hab
  rw [he, Std.ReflOrd.compare_self] at hself
  cases hself

/-- A directory has nothing that was not filed, also where names come twice. -/
theorem mem_of_mem_ofList {e : String × α} (h : e ∈ (ofList pairs).entries) : e ∈ pairs := by
  have hfold : ∀ d : Directory α, e ∈ (pairs.foldl (fun d p => d.insert p.1 p.2) d).entries →
      e ∈ pairs ∨ e ∈ d.entries := by
    clear h
    induction pairs with
    | nil => exact fun d he => .inr he
    | cons p pairs ih =>
      intro d he
      rcases ih _ he with he | he
      · exact .inl (List.mem_cons_of_mem p he)
      · rcases mem_insertEntry he with rfl | he
        · exact .inl List.mem_cons_self
        · exact .inr he
  exact (hfold empty h).resolve_right List.not_mem_nil

/-- **Entries in order are known by what they are**: two directories with the
same entries are one. -/
theorem eq_of_perm {d d' : Directory α} (h : d.entries.Perm d'.entries) : d = d' := by
  obtain ⟨es, hes⟩ := d
  obtain ⟨es', hes'⟩ := d'
  obtain rfl : es = es' :=
    List.Perm.eq_of_pairwise (fun a b _ _ hab hba => absurd hba hab.asymm) hes hes' h
  rfl

/-- **A directory is filed from its entries as it was.** -/
theorem ofList_entries (d : Directory α) : ofList d.entries = d :=
  eq_of_perm (entries_ofList_perm d.nodup_names)

/-- **The order of filing does not matter** where the names are different. -/
theorem ofList_perm (h : pairs.Perm pairs') (hnames : (pairs.map Prod.fst).Nodup) :
    ofList pairs = ofList pairs' := by
  have hnames' : (pairs'.map Prod.fst).Nodup := (h.map Prod.fst).nodup_iff.1 hnames
  refine eq_of_perm ?_
  calc
    (ofList pairs).entries.Perm pairs := entries_ofList_perm hnames
    List.Perm _ pairs' := h
    List.Perm _ (ofList pairs').entries := (entries_ofList_perm hnames').symm

/-! ### What an entry takes the place of -/

/-- An entry that all others come after is not among them. -/
theorem lookup_eq_none (h : ∀ e ∈ es, compare name e.1 = .lt) : es.lookup name = none := by
  refine List.lookup_eq_none_iff.2 fun e he => bne_iff_ne.2 ?_
  rintro rfl
  have hself := h e he
  rw [Std.ReflOrd.compare_self] at hself
  cases hself

/-- Looking for the place of an entry in order, one meets the entry that has it. -/
theorem exchangeEntry_fst (h : es.Pairwise Precedes) : (exchangeEntry name entry es).1 = es.lookup name := by
  induction es with
  | nil => rfl
  | cons e es ih =>
    obtain ⟨n, x⟩ := e
    obtain ⟨hfirst, hrest⟩ := List.pairwise_cons.1 h
    unfold exchangeEntry
    split
    case h_1 hlt =>
      have hbefore : ∀ e ∈ (n, x) :: es, compare name e.1 = .lt :=
        List.forall_mem_cons.2 ⟨hlt, fun e he => Std.TransCmp.lt_trans hlt (hfirst e he)⟩
      exact (lookup_eq_none hbefore).symm
    case h_2 heq =>
      obtain rfl := eq_of_compare heq
      exact List.lookup_cons_self.symm
    case h_3 hgt =>
      have hne : name ≠ n := by
        rintro rfl
        rw [Std.ReflOrd.compare_self] at hgt
        cases hgt
      rw [lookup_cons_of_ne hne]
      exact ih hrest

/-- **Filing answers what was filed before** under the name. -/
theorem exchange_eq (d : Directory α) (name : String) (entry : α) :
    d.exchange name entry = (d.find? name, d.insert name entry) := by
  refine Prod.ext (exchangeEntry_fst d.isSorted) ?_
  simp only [exchange, insert, exchangeEntry_snd]

/-! ### Entries that are filed under what they are called -/

variable {called : α → String} {x : α}

/-- **A directory of entries under their own names.** -/
def IsFiledBy (called : α → String) (d : Directory α) : Prop := ∀ e ∈ d.entries, e.1 = called e.2

theorem isFiledBy_empty : (empty : Directory α).IsFiledBy called := List.forall_mem_nil _

theorem IsFiledBy.insert (h : d.IsFiledBy called) (x : α) : (d.insert (called x) x).IsFiledBy called := by
  intro e he
  rcases mem_insertEntry he with rfl | he
  · rfl
  · exact h e he

/-- An entry is found under its name, and under no other. -/
theorem IsFiledBy.find?_eq_some_iff (h : d.IsFiledBy called) :
    d.find? name = some x ↔ x ∈ d.values ∧ called x = name := by
  constructor
  · intro hfound
    have hmem := mem_of_find? hfound
    exact ⟨List.mem_map.2 ⟨_, hmem, rfl⟩, (h _ hmem).symm⟩
  · rintro ⟨hx, rfl⟩
    obtain ⟨⟨n, x⟩, he, rfl⟩ := List.mem_map.1 hx
    obtain rfl : n = called x := h _ he
    exact find?_of_mem d.nodup_names he

/-- **The entries are listed in the strict order of what they are called.** -/
theorem IsFiledBy.pairwise_values (h : d.IsFiledBy called) :
    d.values.Pairwise fun x y => compare (called x) (called y) = .lt := by
  refine List.pairwise_map.2 (d.isSorted.imp_of_mem fun {a b} ha hb hab => ?_)
  rw [← h a ha, ← h b hb]
  exact hab

/-- No two entries are called the same. -/
theorem IsFiledBy.nodup_names_values (h : d.IsFiledBy called) : (d.values.map called).Nodup := by
  have hnames : d.values.map called = d.names := by
    rw [values, names, List.map_map]
    exact List.map_congr_left fun e he => (h e he).symm
  rw [hnames]
  exact d.nodup_names

end Directory

end TypedTables

/-!
# TypedTables — directories

A directory files entries under names and lists them in the order of the
names, character by character. Every insertion keeps its list of entries
sorted, so two directories with the same entries are the same list,
however they were filled.
-/

namespace TypedTables

namespace Directory

variable {α : Type} {name : String} {entry : α} {es : List (String × α)}

/-! ## Entries in order -/

/-- Whether one entry stands before another. -/
def Precedes (a b : String × α) : Prop := compare a.1 b.1 = .lt

theorem Precedes.trans {a b c : String × α} (hab : Precedes a b) (hbc : Precedes b c) : Precedes a c :=
  Std.TransCmp.lt_trans hab hbc

/-- Names that compare as equal are the same. -/
theorem eq_of_compare {a b : String} (h : compare a b = .eq) : a = b :=
  Std.LawfulEqOrd.eq_of_compare h

/-- Files an entry in a sorted list, in place of one of the same name. -/
def insertEntry (name : String) (entry : α) : List (String × α) → List (String × α)
  | [] => [(name, entry)]
  | (n, e) :: rest =>
    match compare name n with
    | .lt => (name, entry) :: (n, e) :: rest
    | .eq => (name, entry) :: rest
    | .gt => (n, e) :: insertEntry name entry rest

/-- Nothing but the new entry comes in. -/
theorem mem_insertEntry {e : String × α} (h : e ∈ insertEntry name entry es) :
    e = (name, entry) ∨ e ∈ es := by
  induction es with
  | nil => exact .inl (List.mem_singleton.1 h)
  | cons x es ih =>
    obtain ⟨n, y⟩ := x
    unfold insertEntry at h
    split at h
    · exact List.mem_cons.1 h
    · exact (List.mem_cons.1 h).imp_right (List.mem_cons_of_mem _)
    · rcases List.mem_cons.1 h with rfl | h
      · exact .inr List.mem_cons_self
      · exact (ih h).imp_right (List.mem_cons_of_mem _)

/-- **An insertion keeps the order.** -/
theorem pairwise_insertEntry (h : es.Pairwise Precedes) :
    (insertEntry name entry es).Pairwise Precedes := by
  induction es with
  | nil => exact List.pairwise_singleton _ _
  | cons x es ih =>
    obtain ⟨n, y⟩ := x
    obtain ⟨hfirst, hrest⟩ := List.pairwise_cons.1 h
    unfold insertEntry
    split
    case h_1 hlt =>
      have hnew : Precedes (name, entry) (n, y) := hlt
      refine List.pairwise_cons.2 ⟨fun e he => ?_, h⟩
      rcases List.mem_cons.1 he with rfl | he
      · exact hnew
      · exact hnew.trans (hfirst e he)
    case h_2 heq =>
      obtain rfl := eq_of_compare heq
      exact List.pairwise_cons.2 ⟨hfirst, hrest⟩
    case h_3 hgt =>
      refine List.pairwise_cons.2 ⟨fun e he => ?_, ih hrest⟩
      rcases mem_insertEntry he with rfl | he
      · exact Std.OrientedCmp.lt_of_gt hgt
      · exact hfirst e he

/-- Files an entry in a sorted list and answers the one that it takes the place of. -/
def exchangeEntry (name : String) (entry : α) : List (String × α) → Option α × List (String × α)
  | [] => (none, [(name, entry)])
  | (n, e) :: rest =>
    match compare name n with
    | .lt => (none, (name, entry) :: (n, e) :: rest)
    | .eq => (some e, (name, entry) :: rest)
    | .gt =>
      let (replaced, filed) := exchangeEntry name entry rest
      (replaced, (n, e) :: filed)

theorem exchangeEntry_snd (name : String) (entry : α) (es : List (String × α)) :
    (exchangeEntry name entry es).2 = insertEntry name entry es := by
  induction es with
  | nil => rfl
  | cons e es ih =>
    obtain ⟨n, x⟩ := e
    rw [exchangeEntry, insertEntry]
    split
    · rfl
    · rfl
    · exact congrArg _ ih

end Directory

/-! ## Directories -/

/-- Entries under names, in the order of the names. -/
structure Directory (α : Type) where
  entries : List (String × α)
  isSorted : entries.Pairwise Directory.Precedes
deriving Repr, DecidableEq

namespace Directory

variable {α : Type}

def empty : Directory α := ⟨[], .nil⟩

instance : Inhabited (Directory α) := ⟨empty⟩

def insert (d : Directory α) (name : String) (entry : α) : Directory α :=
  ⟨insertEntry name entry d.entries, pairwise_insertEntry d.isSorted⟩

/-- Files an entry and answers the one that it replaces. -/
def exchange (d : Directory α) (name : String) (entry : α) : Option α × Directory α :=
  let exchanged := exchangeEntry name entry d.entries
  (exchanged.1, ⟨exchanged.2, exchangeEntry_snd name entry d.entries ▸ pairwise_insertEntry d.isSorted⟩)

/-- Files the pairs of a list one after the other. -/
def ofList (pairs : List (String × α)) : Directory α :=
  pairs.foldl (fun d (name, entry) => d.insert name entry) empty

def find? (d : Directory α) (name : String) : Option α := d.entries.lookup name

def contains (d : Directory α) (name : String) : Bool := (d.find? name).isSome

/-- The names, in order. -/
def names (d : Directory α) : List String := d.entries.map Prod.fst

/-- The entries, in the order of their names. -/
def values (d : Directory α) : List α := d.entries.map Prod.snd

def size (d : Directory α) : Nat := d.entries.length

def isEmpty (d : Directory α) : Bool := d.entries.isEmpty

end Directory

end TypedTables

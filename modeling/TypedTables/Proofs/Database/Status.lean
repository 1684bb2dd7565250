import TypedTables.Proofs.Database.Dialect
import TypedTables.Proofs.Database.Transaction
/-!
# TypedTables — plans on an engine

What it takes for a plan to be created on an engine, and what the status then
says of it: of each of its tables whether it is there, and how many rows it has.
To ask for it changes nothing. An answer comes where the numbers of rows fit into
cells, which are what a query answers them in.
-/

namespace TypedTables

namespace Connection

variable {δ ε α β : Type} {c : Connection δ}

/-- Two computations that change nothing change nothing together. -/
theorem snd_bind {m : ConnectionM δ ε α} {f : α → ConnectionM δ ε β} (hm : (m c).2 = c)
    (hf : ∀ a, (m c).1 = .ok a → (f a c).2 = c) : ((m >>= f) c).2 = c := by
  have hbind := run_bind_state m f c
  rcases hrun : m c with ⟨error | a, c₁⟩ <;> rw [hrun] at hm hf <;> obtain rfl : c₁ = c := hm
  · have hfails : m.run c₁ = (.error error, c₁) := hrun
    rw [hfails] at hbind
    exact congrArg Prod.snd hbind
  · have hsucceeds : m.run c₁ = (.ok a, c₁) := hrun
    rw [hsucceeds] at hbind
    exact (congrArg Prod.snd hbind).trans (hf a rfl)

end Connection

namespace Inventory

variable {v : Inventory} {name : String}

/-- **What there is of a table**, and how many rows it has. -/
def tableStatus (v : Inventory) (name : String) : TableStatus :=
  ⟨name, v.lists name, if v.lists name then ((v.table? name).map (·.rows)).getD 0 else 0⟩

/-- **A table whose rows can be counted**, if it is there: their number fits into
a cell. -/
def IsCountable (v : Inventory) (name : String) : Prop :=
  ∀ t, v.table? name = some t → (t.rows : Int) ≤ Int64.maxValue.toInt

/-- A table that is there by its very name is found by it. -/
theorem exists_table?_of_lists (h : v.lists name = true) : ∃ t, v.table? name = some t := by
  obtain ⟨t, ht, hname⟩ := List.any_eq_true.1 h
  have hsame : Keyword.same t.name name = true := beq_iff_eq.1 hname ▸ Keyword.same_refl t.name
  have hfound : (v.table? name).isSome = true := List.find?_isSome.2 ⟨t, ht, hsame⟩
  exact Option.isSome_iff_exists.1 hfound

end Inventory

variable {δ : Type} {e : Engine δ} {w : Dialect} {list : δ → Inventory} {c c' : Connection δ}

namespace Migration

/-! ## Creating what a plan says -/

/-- **Creating what a plan says** is to run its statements. -/
theorem up_eq_ok (he : e.Speaks w list) {p : SchemaPlan}
    (h : ∀ name ∈ p.tables, Identifier.isValid name = true) :
    up e p c = (.ok (), c') ↔ runScripts e .notCreated p.statements c = (.ok (), c') := by
  rw [up, validate_eq_ok h, pure_bind, Engine.transaction_eq_ok_iff]
  constructor
  · rintro ⟨-, ran, hrun, hcommit⟩
    rw [he.commit_eq] at hcommit
    exact (Prod.mk.inj hcommit).2 ▸ hrun
  · exact fun hrun => ⟨he.start_eq c, c', hrun, he.commit_eq c'⟩

/-! ## To ask for the status changes nothing -/

/-- **A name that a table of a plan can have** in queries. -/
structure IsAskable (w : Dialect) (name : String) : Prop where
  isValid : Identifier.isValid name = true
  not_refused : ¬w.refuses .created name

variable {name : String} {names : List String}

theorem hasTable_eq (he : e.Speaks w list) (h : IsAskable w name) (c : Connection δ) :
    LocalDatabase.onEngine (e.hasTable name) c = (.ok ((list c.database).lists name), c) :=
  Connection.adapt_eq_ok.2 (he.hasTable_eq c h.not_refused)

/-- **To count a table that is there** changes nothing, and answers how many rows
it has where a cell can show it. -/
theorem count_eq (he : e.Speaks w list) (h : IsAskable w name) {t : ListedTable}
    (ht : (list c.database).table? name = some t) : (LocalDatabase.count e name .empty c).2 = c ∧
      ((t.rows : Int) ≤ Int64.maxValue.toInt → LocalDatabase.count e name .empty c = (.ok t.rows, c)) := by
  obtain ⟨labels, n, hquery, hrows⟩ := he.counts h.isValid h.not_refused ht
  have hcursor : LocalDatabase.onEngine (e.query (Statement.count name .empty)) c =
      (.ok ⟨labels, [[.integer n]]⟩, c) := 
    Connection.adapt_eq_ok.2 (Statement.count_empty ▸ hquery)
  refine ⟨Connection.snd_bind (congrArg Prod.snd hcursor) fun cursor _ => ?_, fun hsize => ?_⟩
  · rcases LocalDatabase.countOf cursor with error | n <;> rfl
  · have hcount : LocalDatabase.countOf ⟨labels, [[.integer n]]⟩ = .ok t.rows := by
      simp [LocalDatabase.countOf, hrows hsize]
    refine Connection.bind_eq_ok.2 ⟨_, c, hcursor, ?_⟩
    rw [hcount]
    rfl

theorem snd_tableStatus (he : e.Speaks w list) (h : IsAskable w name) (c : Connection δ) :
    (tableStatus e name c).2 = c := by
  refine Connection.snd_bind (congrArg Prod.snd (hasTable_eq he h c)) fun hasTable hhas => ?_
  rw [hasTable_eq he h c] at hhas
  obtain rfl : (list c.database).lists name = hasTable := Except.ok.inj hhas
  rcases hlists : (list c.database).lists name with _ | _
  · rfl
  · obtain ⟨t, ht⟩ := Inventory.exists_table?_of_lists hlists
    exact Connection.snd_bind (count_eq he h ht).1 fun _ _ => rfl

theorem snd_statusEach (he : e.Speaks w list) (h : ∀ name ∈ names, IsAskable w name) (c : Connection δ) :
    (statusEach e names c).2 = c := by
  induction names with
  | nil => rfl
  | cons name names ih =>
    have hrest := ih fun n hn => h n (List.mem_cons_of_mem name hn)
    refine Connection.snd_bind (snd_tableStatus he (h name List.mem_cons_self) c) fun _ _ => ?_
    exact Connection.snd_bind hrest fun _ _ => rfl

/-- **To ask for the status of a plan changes nothing.** -/
theorem snd_status (he : e.Speaks w list) {p : SchemaPlan} (h : ∀ name ∈ p.tables, IsAskable w name)
    (c : Connection δ) : (status e p c).2 = c := by
  rw [status, validate_eq_ok fun name hname => (h name hname).isValid, pure_bind]
  exact Connection.snd_bind (snd_statusEach he h c) fun _ _ => rfl

/-! ## It is answered -/

theorem tableStatus_eq (he : e.Speaks w list) (h : IsAskable w name)
    (hd : (list c.database).IsCountable name) :
    tableStatus e name c = (.ok ((list c.database).tableStatus name), c) := by
  refine Connection.bind_eq_ok.2 ⟨_, c, hasTable_eq he h c, ?_⟩
  rw [Inventory.tableStatus]
  rcases hlists : (list c.database).lists name with _ | _
  · rfl
  · obtain ⟨t, ht⟩ := Inventory.exists_table?_of_lists hlists
    have hcount := (count_eq he h ht).2 (hd t ht)
    rw [ht]
    exact Connection.bind_eq_ok.2 ⟨t.rows, c, hcount, rfl⟩

theorem statusEach_eq (he : e.Speaks w list) (h : ∀ name ∈ names, IsAskable w name)
    (hd : ∀ name ∈ names, (list c.database).IsCountable name) :
    statusEach e names c = (.ok (names.map (list c.database).tableStatus), c) := by
  induction names with
  | nil => rfl
  | cons name names ih =>
    rw [List.forall_mem_cons] at h hd
    have hrest := ih h.2 hd.2
    refine Connection.bind_eq_ok.2 ⟨_, c, tableStatus_eq he h.1 hd.1, ?_⟩
    exact Connection.bind_eq_ok.2 ⟨_, c, hrest, rfl⟩

/-- **The status of a plan** on a database whose rows can be counted. -/
theorem status_eq (he : e.Speaks w list) {p : SchemaPlan} (h : ∀ name ∈ p.tables, IsAskable w name)
    (hd : ∀ name ∈ p.tables, (list c.database).IsCountable name) :
    status e p c = (.ok ⟨p.tables.map (list c.database).tableStatus⟩, c) := by
  rw [status, validate_eq_ok fun name hname => (h name hname).isValid, pure_bind]
  exact Connection.bind_eq_ok.2 ⟨_, c, statusEach_eq he h hd, rfl⟩

end Migration

end TypedTables

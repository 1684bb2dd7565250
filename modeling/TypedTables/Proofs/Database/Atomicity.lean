import Mathlib.Algebra.Ring.Nat
import TypedTables.Proofs.Database.Transaction
/-!
# TypedTables — atomic writes

A batch of rows is inserted by one statement for each row, tables are created
by the statements of their plan, and dropped by one statement for each table,
the last one first. Each of these is a transaction, so it does all of its
statements or none, on every engine. A plan that names a table by anything but
an identifier is refused before the engine is asked for anything.
-/

namespace TypedTables

open Connection

variable {δ : Type} {e : Engine δ} {c : Connection δ} {p : SchemaPlan}

/-! ## Batches of rows -/

namespace LocalDatabase

/-- Inserting rows is to run their statements, and to add up the counts. -/
theorem performs_insertEach (table : String) (policy : ConflictPolicy) (rows : List Values) :
    Performs (insertEach e table policy rows) e.execute
      (rows.map fun row => Statement.insert table row policy) List.sum DatabaseError.ofFault := by
  induction rows with
  | nil => exact performs_nil List.sum _
  | cons row rows ih => exact ih.cons _ (· + ·) fun _ _ => List.sum_cons

theorem allOrNothing_insert (table : String) (policy : ConflictPolicy) (rows : List Values) :
    e.AllOrNothing ((storage e).insert table rows policy) e.execute
      (rows.map fun row => Statement.insert table row policy) List.sum
      (StorageError.database ∘ DatabaseError.ofFault) (StorageError.database ∘ DatabaseError.ofFault) :=
  (Engine.allOrNothing_of_performs (performs_insertEach table policy rows)).adapt

end LocalDatabase

/-! ## Plans -/

namespace Migration

theorem performs_runScripts (ofFault : EngineFault → DatabaseError) (scripts : List String) :
    Performs (runScripts e ofFault scripts) e.script scripts (fun _ => ()) ofFault := by
  induction scripts with
  | nil => exact performs_nil (fun _ => ()) _
  | cons script scripts ih =>
    have hcons := ih.cons script (fun _ u => u) fun _ _ => rfl
    rw [runScripts]
    simpa only [bind_pure] using hcons

/-- Creating what a plan of identifiers says does all its statements or none. -/
theorem allOrNothing_up (h : ∀ name ∈ p.tables, Identifier.isValid name = true) :
    e.AllOrNothing (up e p) e.script p.statements (fun _ => ()) .notCreated DatabaseError.ofFault := by
  rw [up, validate_eq_ok h, pure_bind]
  exact Engine.allOrNothing_of_performs (performs_runScripts _ p.statements)

/-- Dropping the tables of such a plan drops all of them or none. -/
theorem allOrNothing_down (h : ∀ name ∈ p.tables, Identifier.isValid name = true) :
    e.AllOrNothing (down e p) e.script (p.tables.reverse.map Model.dropTable) (fun _ => ()) .notDropped
      DatabaseError.ofFault := by
  rw [down, validate_eq_ok h, pure_bind]
  exact Engine.allOrNothing_of_performs (performs_runScripts _ _)

/-- **A plan with a name that is no identifier is refused.** The fault names
the first such table, and nothing about the connection has changed. -/
theorem exists_refusal (e : Engine δ) (h : ∃ name ∈ p.tables, Identifier.isValid name = false) :
    ∃ name ∈ p.tables, Identifier.isValid name = false ∧ ∀ c,
      up e p c = (.error (.invalidIdentifier name), c) ∧
      down e p c = (.error (.invalidIdentifier name), c) ∧
      status e p c = (.error (.invalidIdentifier name), c) := by
  obtain ⟨name, hname, hinvalid⟩ := h
  have hsome : p.invalidTable?.isSome = true :=
    List.find?_isSome.2 ⟨name, hname, by rw [hinvalid]; rfl⟩
  obtain ⟨first, hfirst⟩ := Option.isSome_iff_exists.1 hsome
  have hbad := List.find?_some (p := fun name => !Identifier.isValid name) hfirst
  rw [Bool.not_eq_true'] at hbad
  have hvalidate : (validate p : ConnectionM δ DatabaseError Unit) = throw (.invalidIdentifier first) := by
    rw [validate, hfirst]
  refine ⟨first, List.mem_of_find?_eq_some hfirst, hbad, fun c => ⟨?_, ?_, ?_⟩⟩
  · rw [up, hvalidate]
    rfl
  · rw [down, hvalidate]
    rfl
  · rw [status, hvalidate]
    rfl

end Migration

open LocalDatabase Migration

/-- **Writes are atomic.** On every engine, a batch of rows is inserted as a
whole, by one statement for each row in their order, and the answer is the sum
of the statements' counts; or else it fails at the first fault, and the
database is what it was. So it is with the statements of a plan, and with the
tables it drops, the last one first. Whoever has a plan with an invalid name
created, dropped or looked for is told so, and the whole connection is what it
was: no statement has been run, or an engine that counts them would show it. -/
theorem writes_are_atomic (e : Engine δ) :
    (∀ table policy (rows : List Values),
      e.AllOrNothing ((storage e).insert table rows policy) e.execute
        (rows.map fun row => Statement.insert table row policy) List.sum
        (StorageError.database ∘ DatabaseError.ofFault) (StorageError.database ∘ DatabaseError.ofFault)) ∧
    (∀ p : SchemaPlan, (∀ name ∈ p.tables, Identifier.isValid name = true) →
      e.AllOrNothing (up e p) e.script p.statements (fun _ => ()) .notCreated DatabaseError.ofFault ∧
      e.AllOrNothing (down e p) e.script (p.tables.reverse.map Model.dropTable) (fun _ => ()) .notDropped
        DatabaseError.ofFault) ∧
    ∀ p : SchemaPlan, (∃ name ∈ p.tables, Identifier.isValid name = false) →
      ∃ name ∈ p.tables, Identifier.isValid name = false ∧ ∀ c,
        up e p c = (.error (.invalidIdentifier name), c) ∧
        down e p c = (.error (.invalidIdentifier name), c) ∧
        status e p c = (.error (.invalidIdentifier name), c) := by
  exact ⟨allOrNothing_insert, fun p h => ⟨allOrNothing_up h, allOrNothing_down h⟩,
    fun p h => exists_refusal e h⟩

/-- Two tags with the label that only one may have are inserted together or not
at all, and plans that can and cannot be carried out are told apart by the
names in them. -/
theorem writes_are_atomic_tags :
    (∃ c after : Connection Database,
      (storage Engine.embedded).insert "tags" [⟨[("label", .text "a")]⟩, ⟨[("label", .text "a")]⟩] .abort c =
        (.error (.database (.engine .notUnique)), after) ∧ after.database = c.database) ∧
    ((∀ name ∈ ["tags", "posts"], Identifier.isValid name = true) ∧
      Engine.embedded.AllOrNothing (down Engine.embedded ⟨["tags", "posts"], []⟩) Engine.embedded.script
        ["DROP TABLE IF EXISTS posts", "DROP TABLE IF EXISTS tags"] (fun _ => ()) .notDropped
        DatabaseError.ofFault) ∧
    (∃ name ∈ ["tags", "9a"], Identifier.isValid name = false) ∧
      ∃ name ∈ ["tags", "9a"], Identifier.isValid name = false ∧ ∀ c,
        up Engine.embedded ⟨["tags", "9a"], []⟩ c = (.error (.invalidIdentifier name), c) := by
  obtain ⟨hbatch, hplan, hrefused⟩ := writes_are_atomic Engine.embedded
  let tags : Table :=
    { name := "tags", columns := [{ name := "label", affinity := .text }], uniqueGroups := [[0]] }
  have hinsert : @Eq (Except StorageError Nat × Connection Database)
      ((storage Engine.embedded).insert "tags" [⟨[("label", .text "a")]⟩, ⟨[("label", .text "a")]⟩] .abort
        ⟨⟨[tags], []⟩, 0⟩)
      (.error (.database (.engine .notUnique)), ⟨⟨[tags], []⟩, 1⟩) := by decide +kernel
  have hvalid : ∀ name ∈ ["tags", "posts"], Identifier.isValid name = true := by decide +kernel
  have hinvalid : ∃ name ∈ ["tags", "9a"], Identifier.isValid name = false := by decide +kernel
  refine ⟨⟨_, _, hinsert, (hbatch _ _ _).database_eq _ _ _ hinsert⟩,
    ⟨hvalid, (hplan ⟨["tags", "posts"], []⟩ hvalid).2⟩, hinvalid, ?_⟩
  obtain ⟨name, hname, hbad, hall⟩ := hrefused ⟨["tags", "9a"], []⟩ hinvalid
  exact ⟨name, hname, hbad, fun c => (hall c).1⟩

end TypedTables

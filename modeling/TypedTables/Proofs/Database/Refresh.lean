import TypedTables.Proofs.Database.Atomicity
/-!
# TypedTables — refreshing a schema

To refresh is to drop the tables of a plan and to create them again. Either
half does all or nothing, but they are two transactions: what the first one
has committed is not taken back when the second one fails. So a refresh that
fails leaves the database as it was only where nothing had been dropped.
-/

namespace TypedTables

namespace Migration

open Connection

variable {δ : Type} {e : Engine δ} {p : SchemaPlan} {c after : Connection δ} {error : DatabaseError}

/-! ## Each half by itself -/

/-- A plan is refused, or it names its tables by identifiers alone. -/
theorem isRefused_or (p : SchemaPlan) :
    (∃ name ∈ p.tables, Identifier.isValid name = false) ∨
      ∀ name ∈ p.tables, Identifier.isValid name = true := by
  by_cases h : ∃ name ∈ p.tables, Identifier.isValid name = false
  · exact .inl h
  · right
    intro name hname
    exact eq_true_of_ne_false fun hinvalid => h ⟨name, hname, hinvalid⟩

theorem database_of_down_error (h : down e p c = (.error error, after)) :
    after.database = c.database := by
  rcases isRefused_or p with hrefused | hvalid
  · obtain ⟨name, -, -, hall⟩ := exists_refusal e hrefused
    rw [(hall c).2.1] at h
    rw [(Prod.mk.inj h).2]
  · exact (allOrNothing_down hvalid).database_eq c error after h

theorem database_of_up_error (h : up e p c = (.error error, after)) : after.database = c.database := by
  rcases isRefused_or p with hrefused | hvalid
  · obtain ⟨name, -, -, hall⟩ := exists_refusal e hrefused
    rw [(hall c).1] at h
    rw [(Prod.mk.inj h).2]
  · exact (allOrNothing_up hvalid).database_eq c error after h

/-! ## One half after the other -/

/-- **A refresh that fails** has dropped nothing, or leaves what dropping has
left. -/
theorem cases_of_refresh_error (h : refresh e p c = (.error error, after)) :
    (down e p c = (.error error, after) ∧ after.database = c.database) ∨
      ∃ dropped, down e p c = (.ok (), dropped) ∧ up e p dropped = (.error error, after) ∧
        after.database = dropped.database := by
  rcases bind_eq_error.1 h with hdown | ⟨_, dropped, hdown, hup⟩
  · exact .inl ⟨hdown, database_of_down_error hdown⟩
  · exact .inr ⟨dropped, hdown, hup, database_of_up_error hup⟩

/-- **When a refresh is all or nothing.** On every engine, for every plan and
in every state: if the refresh fails the database is what it was, just if
nothing can go wrong any more once dropping has changed it. -/
theorem refresh_keeps_iff (e : Engine δ) (p : SchemaPlan) (c : Connection δ) :
    (∀ error after, refresh e p c = (.error error, after) → after.database = c.database) ↔
      ∀ dropped, down e p c = (.ok (), dropped) → dropped.database ≠ c.database →
        ∃ created, up e p dropped = (.ok (), created) := by
  constructor
  · intro hkeeps dropped hdown hchanged
    rcases hup : up e p dropped with ⟨error | ⟨⟩, after⟩
    · have hrefresh : refresh e p c = (.error error, after) :=
        bind_eq_error.2 (.inr ⟨(), dropped, hdown, hup⟩)
      have hkept := hkeeps error after hrefresh
      rw [database_of_up_error hup] at hkept
      exact absurd hkept hchanged
    · exact ⟨after, rfl⟩
  · intro hcreates error after hrefresh
    rcases cases_of_refresh_error hrefresh with ⟨-, hsame⟩ | ⟨dropped, hdown, hup, hleft⟩
    · exact hsame
    · -- the tables had been dropped and that was committed, so it must have changed nothing
      rw [hleft]
      by_cases hchanged : dropped.database = c.database
      · exact hchanged
      obtain ⟨created, hcreated⟩ := hcreates dropped hdown hchanged
      rw [hup] at hcreated
      cases hcreated

/-- An author is lost where the tables are dropped and the statement that
creates them cannot be read: dropping has changed the database, and creating
goes wrong. -/
theorem refresh_loses_author :
    ∃ (p : SchemaPlan) (c after : Connection Database),
      c.database.tables.map (fun t => (t.name, t.rows.length)) = [("authors", 1)] ∧
      refresh Engine.embedded p c = (.error (.notCreated .syntaxError), after) ∧
      after.database.tables = [] ∧
      ∃ dropped, down Engine.embedded p c = (.ok (), dropped) ∧ dropped.database ≠ c.database ∧
        ¬∃ created, up Engine.embedded p dropped = (.ok (), created) := by
  let authors : Table :=
    { name := "authors", columns := [{ name := "name", affinity := .text }], rows := [⟨1, [.text "a"]⟩] }
  have hrefresh : @Eq (Except DatabaseError Unit × Connection Database)
      (refresh Engine.embedded ⟨["authors"], ["CREATE TABLE broken ("]⟩ ⟨⟨[authors], []⟩, 1⟩)
      (.error (.notCreated .syntaxError), ⟨.empty, 1⟩) := by decide +kernel
  have hlost := mt (refresh_keeps_iff Engine.embedded ⟨["authors"], ["CREATE TABLE broken ("]⟩
    ⟨⟨[authors], []⟩, 1⟩).2 fun hkeeps => nomatch congrArg Database.tables (hkeeps _ _ hrefresh)
  obtain ⟨dropped, hlost⟩ := not_forall.1 hlost
  obtain ⟨hdown, hlost⟩ := Classical.not_imp.1 hlost
  obtain ⟨hchanged, hfails⟩ := Classical.not_imp.1 hlost
  exact ⟨_, _, _, rfl, hrefresh, rfl, dropped, hdown, hchanged, hfails⟩

end Migration

end TypedTables

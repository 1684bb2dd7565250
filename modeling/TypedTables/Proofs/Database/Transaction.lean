import TypedTables.Proofs.Database.Run
/-!
# TypedTables — transactions

A transaction runs steps one after the other. Either all of them succeed and
are committed, or the first fault ends it: no step behind that one is run,
and the database is what it was. This holds of every engine, whatever its
statements do before they fail, and whether or not a failing one has ended
the transaction by itself. What remains is to show of each kind of work that
it consists of such steps.
-/

namespace TypedTables

namespace Connection

variable {δ ε ε' α β : Type} {c c' c'' : Connection δ}

/-- One computation after the other: the first fails, or it succeeds and the
second fails. -/
theorem bind_eq_error {m : ConnectionM δ ε α} {f : α → ConnectionM δ ε β} {error : ε} :
    (m >>= f) c = (.error error, c'') ↔
      m c = (.error error, c'') ∨ ∃ a c', m c = (.ok a, c') ∧ f a c' = (.error error, c'') := by
  have hbind : (m >>= f) c = match m c with
      | (.ok a, c') => f a c'
      | (.error e, c') => (.error e, c') := by
    show (match (m c).1 with
      | .ok a => f a
      | .error e => pure (.error e) : StateM (Connection δ) (Except ε β)) (m c).2 = _
    rcases m c with ⟨_ | a, c'⟩ <;> rfl
  rw [hbind]
  rcases m c with ⟨e | a, c'⟩
  · constructor
    · intro h
      obtain ⟨he, rfl⟩ := Prod.mk.inj h
      obtain rfl := Except.error.inj he
      exact .inl rfl
    · rintro (h | ⟨_, _, h, -⟩)
      · obtain ⟨he, rfl⟩ := Prod.mk.inj h
        obtain rfl := Except.error.inj he
        rfl
      · cases h
  · constructor
    · exact fun h => .inr ⟨a, c', rfl, h⟩
    · rintro (h | ⟨b, c₁, h, hf⟩)
      · cases h
      · obtain ⟨ha, rfl⟩ := Prod.mk.inj h
        obtain rfl := Except.ok.inj ha
        exact hf

/-- What fails, fails with the same fault in other words. -/
theorem adapt_eq_error {m : ConnectionM δ ε α} {f : ε → ε'} {error : ε'} :
    (m.adapt f) c = (.error error, c') ↔ ∃ e, m c = (.error e, c') ∧ f e = error := by
  have hadapt : (m.adapt f) c = ((m c).1.mapError f, (m c).2) := rfl
  rw [hadapt]
  rcases m c with ⟨e | a, c₁⟩
  · constructor
    · intro h
      obtain ⟨he, rfl⟩ := Prod.mk.inj h
      exact ⟨e, rfl, Except.error.inj he⟩
    · rintro ⟨e', h, rfl⟩
      obtain ⟨he, rfl⟩ := Prod.mk.inj h
      obtain rfl := Except.error.inj he
      rfl
  · constructor
    · intro h
      cases h
    · rintro ⟨_, h, -⟩
      cases h

/-! ## Steps one after the other -/

section Steps

variable {σ : Type} {f : σ → ConnectionM δ EngineFault α} {s : σ} {steps : List σ}

/-- **Steps that all succeed**, each with its answer. -/
inductive Runs (f : σ → ConnectionM δ EngineFault α) :
    List σ → List α → Connection δ → Connection δ → Prop
  | nil (c : Connection δ) : Runs f [] [] c c
  | cons {s : σ} {steps : List σ} {a : α} {answers : List α} {before between after : Connection δ} :
      f s before = (.ok a, between) → Runs f steps answers between after →
      Runs f (s :: steps) (a :: answers) before after

/-- **Steps that stop at a fault.** Those before the fault succeed, and those
behind it are not run. -/
inductive Stops (f : σ → ConnectionM δ EngineFault α) :
    List σ → EngineFault → Connection δ → Connection δ → Prop
  | here {s : σ} {steps : List σ} {fault : EngineFault} {before after : Connection δ} :
      f s before = (.error fault, after) → Stops f (s :: steps) fault before after
  | later {s : σ} {steps : List σ} {a : α} {fault : EngineFault} {before between after : Connection δ} :
      f s before = (.ok a, between) → Stops f steps fault between after →
      Stops f (s :: steps) fault before after

/-- A computation that runs steps and puts their answers together. -/
structure Performs (action : ConnectionM δ ε β) (f : σ → ConnectionM δ EngineFault α) (steps : List σ)
    (total : List α → β) (ofStep : EngineFault → ε) : Prop where
  ok_iff : ∀ {c b after}, action c = (.ok b, after) ↔
    ∃ answers, Runs f steps answers c after ∧ total answers = b
  error_iff : ∀ {c error after}, action c = (.error error, after) ↔
    ∃ fault, Stops f steps fault c after ∧ ofStep fault = error

/-- No steps are performed by what only answers. -/
theorem performs_nil (total : List α → β) (ofStep : EngineFault → ε) :
    Performs (pure (total [])) f [] total ofStep where
  ok_iff := by
    intro c b after
    constructor
    · intro h
      obtain ⟨hb, rfl⟩ := Prod.mk.inj h
      exact ⟨[], .nil c, Except.ok.inj hb⟩
    · rintro ⟨answers, hruns, rfl⟩
      cases hruns
      rfl
  error_iff := by
    intro c error after
    constructor
    · intro h
      cases h
    · rintro ⟨fault, hstops, -⟩
      cases hstops

/-- **One more step in front.** Its answer is added to those of the others. -/
theorem Performs.cons {rest : ConnectionM δ ε β} {total : List α → β} {ofStep : EngineFault → ε}
    (h : Performs rest f steps total ofStep) (s : σ) (add : α → β → β)
    (htotal : ∀ a answers, total (a :: answers) = add a (total answers)) :
    Performs (do return add (← (f s).adapt ofStep) (← rest)) f (s :: steps) total ofStep where
  ok_iff := by
    intro c b after
    rw [bind_eq_ok]
    constructor
    · rintro ⟨a, c₁, hs, hrest⟩
      obtain ⟨b', c₂, hb', hpure⟩ := bind_eq_ok.1 hrest
      obtain ⟨answers, hruns, rfl⟩ := h.ok_iff.1 hb'
      obtain ⟨hb, rfl⟩ := Prod.mk.inj hpure
      refine ⟨a :: answers, .cons (adapt_eq_ok.1 hs) hruns, ?_⟩
      rw [htotal]
      exact Except.ok.inj hb
    · rintro ⟨answers, hruns, rfl⟩
      cases hruns with
      | cons hs hruns =>
        refine ⟨_, _, adapt_eq_ok.2 hs, bind_eq_ok.2 ⟨_, _, h.ok_iff.2 ⟨_, hruns, rfl⟩, ?_⟩⟩
        rw [htotal]
        rfl
  error_iff := by
    intro c error after
    -- the step fails, or it succeeds and one behind it fails: adding up answers does not
    rw [bind_eq_error]
    constructor
    · rintro (hs | ⟨a, c₁, hs, hrest⟩)
      · obtain ⟨fault, hfault, rfl⟩ := adapt_eq_error.1 hs
        exact ⟨fault, .here hfault, rfl⟩
      · rcases bind_eq_error.1 hrest with hrest | ⟨b', c₂, -, hpure⟩
        · obtain ⟨fault, hstops, rfl⟩ := h.error_iff.1 hrest
          exact ⟨fault, .later (adapt_eq_ok.1 hs) hstops, rfl⟩
        · cases hpure
    · rintro ⟨fault, hstops, rfl⟩
      cases hstops with
      | here hs => exact .inl (adapt_eq_error.2 ⟨fault, hs, rfl⟩)
      | later hs hstops =>
        exact .inr ⟨_, _, adapt_eq_ok.2 hs, bind_eq_error.2 (.inl (h.error_iff.2 ⟨fault, hstops, rfl⟩))⟩

end Steps

end Connection

open Connection

namespace Engine

variable {δ ε α β σ : Type} {e : Engine δ} {ofFault ofStep : EngineFault → ε} {c after : Connection δ}
  {f : σ → ConnectionM δ EngineFault α} {steps : List σ} {total : List α → β}

section Outcome

variable {action : ConnectionM δ ε β} {b : β} {error : ε} {fault : EngineFault}
  {ran left : Connection δ}

/-! ## How a transaction can end -/

theorem transaction_of_start_error (hstart : e.start c = .error fault) :
    e.transaction ofFault action c = (.error (ofFault fault), c) := by
  unfold transaction
  rw [hstart]

theorem transaction_of_error (hstart : e.start c = .ok ()) (h : action c = (.error error, ran)) :
    e.transaction ofFault action c = (.error error, { ran with database := c.database }) := by
  unfold transaction
  rw [hstart]
  simp only [h]

theorem transaction_of_commit_error (hstart : e.start c = .ok ()) (h : action c = (.ok b, ran))
    (hcommit : e.commit ran = (.error fault, left)) :
    e.transaction ofFault action c = (.error (ofFault fault), { left with database := c.database }) := by
  unfold transaction
  rw [hstart]
  simp only [h, hcommit]

theorem transaction_of_commit (hstart : e.start c = .ok ()) (h : action c = (.ok b, ran))
    (hcommit : e.commit ran = (.ok (), left)) : e.transaction ofFault action c = (.ok b, left) := by
  unfold transaction
  rw [hstart]
  simp only [h, hcommit]

/-- **A transaction that fails** could not be started, or what was to be done
has failed, or the commit has. The database is what it was. -/
theorem cases_of_transaction_error (h : e.transaction ofFault action c = (.error error, after)) :
    ((∃ fault, e.start c = .error fault ∧ ofFault fault = error) ∨
      (e.start c = .ok () ∧ ∃ ran, action c = (.error error, ran)) ∨
      e.start c = .ok () ∧ ∃ b ran fault left,
        action c = (.ok b, ran) ∧ e.commit ran = (.error fault, left) ∧ ofFault fault = error) ∧
      after.database = c.database := by
  rcases hstart : e.start c with fault | ⟨⟩
  · rw [transaction_of_start_error hstart] at h
    obtain ⟨hfault, rfl⟩ := Prod.mk.inj h
    exact ⟨.inl ⟨fault, rfl, Except.error.inj hfault⟩, rfl⟩
  rcases haction : action c with ⟨error' | b, ran⟩
  · rw [transaction_of_error hstart haction] at h
    obtain ⟨herror, rfl⟩ := Prod.mk.inj h
    obtain rfl := Except.error.inj herror
    exact ⟨.inr (.inl ⟨rfl, ran, rfl⟩), rfl⟩
  rcases hcommit : e.commit ran with ⟨fault | ⟨⟩, left⟩
  · rw [transaction_of_commit_error hstart haction hcommit] at h
    obtain ⟨hfault, rfl⟩ := Prod.mk.inj h
    exact ⟨.inr (.inr ⟨rfl, b, ran, fault, left, rfl, hcommit, Except.error.inj hfault⟩), rfl⟩
  · rw [transaction_of_commit hstart haction hcommit] at h
    cases h

/-- **A transaction succeeds** just if it can be started, what is to be done
succeeds, and so does the commit. -/
theorem transaction_eq_ok_iff :
    e.transaction ofFault action c = (.ok b, after) ↔
      e.start c = .ok () ∧ ∃ ran, action c = (.ok b, ran) ∧ e.commit ran = (.ok (), after) := by
  constructor
  · intro h
    rcases hstart : e.start c with fault | ⟨⟩
    · rw [transaction_of_start_error hstart] at h
      cases h
    rcases haction : action c with ⟨error | b', ran⟩
    · rw [transaction_of_error hstart haction] at h
      cases h
    rcases hcommit : e.commit ran with ⟨fault | ⟨⟩, left⟩
    · rw [transaction_of_commit_error hstart haction hcommit] at h
      cases h
    · rw [transaction_of_commit hstart haction hcommit] at h
      obtain ⟨hb, rfl⟩ := Prod.mk.inj h
      exact ⟨rfl, ran, by rw [Except.ok.inj hb], hcommit⟩
  · rintro ⟨hstart, ran, haction, hcommit⟩
    exact transaction_of_commit hstart haction hcommit

end Outcome

/-! ## All steps or none -/

/-- **Steps that are committed.** A transaction is started, every step
succeeds, and so does the commit. -/
def Commits (e : Engine δ) (f : σ → ConnectionM δ EngineFault α) (steps : List σ) (answers : List α)
    (before after : Connection δ) : Prop :=
  e.start before = .ok () ∧ ∃ ran, Runs f steps answers before ran ∧ e.commit ran = (.ok (), after)

/-- **The fault that ends a transaction of steps.** It cannot be started, one
of the steps fails, or the commit does. -/
inductive Aborts (e : Engine δ) (f : σ → ConnectionM δ EngineFault α) (steps : List σ)
    (ofStep ofFault : EngineFault → ε) (before : Connection δ) : ε → Prop
  | start {fault : EngineFault} :
      e.start before = .error fault → Aborts e f steps ofStep ofFault before (ofFault fault)
  | step {fault : EngineFault} {after : Connection δ} :
      e.start before = .ok () → Stops f steps fault before after →
      Aborts e f steps ofStep ofFault before (ofStep fault)
  | commit {answers : List α} {fault : EngineFault} {ran failed : Connection δ} :
      e.start before = .ok () → Runs f steps answers before ran → e.commit ran = (.error fault, failed) →
      Aborts e f steps ofStep ofFault before (ofFault fault)

/-- **All steps or none.** What is done succeeds just if all its steps are
committed, and then answers what their answers come to. It fails just with the
fault that ends the transaction, and then the database is what it was. -/
structure AllOrNothing (e : Engine δ) (action : ConnectionM δ ε β)
    (f : σ → ConnectionM δ EngineFault α) (steps : List σ) (total : List α → β)
    (ofStep ofFault : EngineFault → ε) : Prop where
  ok_iff : ∀ c b after, action c = (.ok b, after) ↔
    ∃ answers, e.Commits f steps answers c after ∧ total answers = b
  error_iff : ∀ c error, (∃ after, action c = (.error error, after)) ↔
    e.Aborts f steps ofStep ofFault c error
  database_eq : ∀ c error after, action c = (.error error, after) → after.database = c.database

/-- **A transaction of steps does all of them or none.** -/
theorem allOrNothing_of_performs {action : ConnectionM δ ε β}
    (h : Performs action f steps total ofStep) :
    e.AllOrNothing (e.transaction ofFault action) f steps total ofStep ofFault where
  ok_iff := by
    intro c b after
    rw [transaction_eq_ok_iff]
    constructor
    · rintro ⟨hstart, ran, haction, hcommit⟩
      obtain ⟨answers, hruns, htotal⟩ := h.ok_iff.1 haction
      exact ⟨answers, ⟨hstart, ran, hruns, hcommit⟩, htotal⟩
    · rintro ⟨answers, ⟨hstart, ran, hruns, hcommit⟩, htotal⟩
      exact ⟨hstart, ran, h.ok_iff.2 ⟨answers, hruns, htotal⟩, hcommit⟩
  error_iff := by
    intro c error
    constructor
    · rintro ⟨after, hrun⟩
      -- a transaction fails at its start, in one of its steps or at its end
      rcases (cases_of_transaction_error hrun).1 with
        ⟨fault, hstart, rfl⟩ | ⟨hstart, ran, haction⟩ | ⟨hstart, b, ran, fault, left, haction, hcommit, rfl⟩
      · exact .start hstart
      · obtain ⟨fault, hstops, rfl⟩ := h.error_iff.1 haction
        exact .step hstart hstops
      · obtain ⟨answers, hruns, -⟩ := h.ok_iff.1 haction
        exact .commit hstart hruns hcommit
    · intro habort
      cases habort with
      | start hstart => exact ⟨_, transaction_of_start_error hstart⟩
      | step hstart hstops =>
        exact ⟨_, transaction_of_error hstart (h.error_iff.2 ⟨_, hstops, rfl⟩)⟩
      | commit hstart hruns hcommit =>
        exact ⟨_, transaction_of_commit_error hstart (h.ok_iff.2 ⟨_, hruns, rfl⟩) hcommit⟩
  database_eq := fun _ _ _ hrun => (cases_of_transaction_error hrun).2

theorem aborts_comp_iff {ε' : Type} {g : ε → ε'} {error : ε'} :
    e.Aborts f steps (g ∘ ofStep) (g ∘ ofFault) c error ↔
      ∃ e', e.Aborts f steps ofStep ofFault c e' ∧ g e' = error := by
  constructor
  · intro h
    cases h with
    | start hstart => exact ⟨_, .start hstart, rfl⟩
    | step hstart hstops => exact ⟨_, .step hstart hstops, rfl⟩
    | commit hstart hruns hcommit => exact ⟨_, .commit hstart hruns hcommit, rfl⟩
  · rintro ⟨e', h, rfl⟩
    cases h with
    | start hstart => exact .start hstart
    | step hstart hstops => exact .step hstart hstops
    | commit hstart hruns hcommit => exact .commit hstart hruns hcommit

/-- All steps or none are done, too, where faults are put in other words. -/
theorem AllOrNothing.adapt {ε' : Type} {action : ConnectionM δ ε β} {g : ε → ε'}
    (h : e.AllOrNothing action f steps total ofStep ofFault) :
    e.AllOrNothing (action.adapt g) f steps total (g ∘ ofStep) (g ∘ ofFault) where
  ok_iff := by
    intro c b after
    rw [adapt_eq_ok]
    exact h.ok_iff c b after
  error_iff := by
    intro c error
    rw [aborts_comp_iff]
    constructor
    · rintro ⟨after, hrun⟩
      obtain ⟨e', herror, hg⟩ := adapt_eq_error.1 hrun
      exact ⟨e', (h.error_iff c e').1 ⟨after, herror⟩, hg⟩
    · rintro ⟨e', habort, hg⟩
      obtain ⟨after, herror⟩ := (h.error_iff c e').2 habort
      exact ⟨after, adapt_eq_error.2 ⟨e', herror, hg⟩⟩
  database_eq := by
    intro c error after hrun
    obtain ⟨e', herror, -⟩ := adapt_eq_error.1 hrun
    exact h.database_eq c e' after herror

end Engine

end TypedTables

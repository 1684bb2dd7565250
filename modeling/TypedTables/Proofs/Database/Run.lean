import TypedTables.Database.Migration
import TypedTables.Proofs.Except
/-!
# TypedTables — runs of the engine

What a run of the embedded engine that succeeds has done, step by step: a
script that is one definition does what the definition does, scripts one after
the other do so one after the other, and a transaction does what is in it.
-/

namespace TypedTables

namespace Connection

variable {δ ε ε' α β : Type} {c c' c'' : Connection δ}

/-- One computation after the other: both succeed. -/
theorem bind_eq_ok {m : ConnectionM δ ε α} {f : α → ConnectionM δ ε β} {b : β} :
    (m >>= f) c = (.ok b, c'') ↔ ∃ a c', m c = (.ok a, c') ∧ f a c' = (.ok b, c'') := by
  have hbind : (m >>= f) c = match m c with
      | (.ok a, c') => f a c'
      | (.error e, c') => (.error e, c') := by
    show (match (m c).1 with
      | .ok a => f a
      | .error e => pure (.error e) : StateM (Connection δ) (Except ε β)) (m c).2 = _
    rcases m c with ⟨_ | a, c'⟩ <;> rfl
  rw [hbind]
  rcases h : m c with ⟨e | a, c'⟩
  · exact ⟨nofun, fun ⟨_, _, hm, _⟩ => nomatch hm⟩
  · constructor
    · exact fun hf => ⟨a, c', rfl, hf⟩
    · rintro ⟨a', c₁, hm, hf⟩
      obtain ⟨ha, rfl⟩ := Prod.mk.inj hm
      obtain rfl := Except.ok.inj ha
      exact hf

/-- What fails is called differently, and what succeeds is the same. -/
theorem adapt_eq_ok {m : ConnectionM δ ε α} {f : ε → ε'} {a : α} :
    (m.adapt f) c = (.ok a, c') ↔ m c = (.ok a, c') := by
  have hadapt : (m.adapt f) c = ((m c).1.mapError f, (m c).2) := rfl
  rw [hadapt]
  rcases m c with ⟨_ | _, _⟩
  · exact ⟨nofun, nofun⟩
  · exact ⟨fun h => by cases h; rfl, fun h => by cases h; rfl⟩

/-- What succeeds may as well be forgotten. -/
theorem discard_eq_ok {m : ConnectionM δ ε α} :
    discard m c = (.ok (), c') ↔ ∃ a, m c = (.ok a, c') := by
  have hmap : discard m = m >>= fun _ => pure () := (bind_pure_comp (fun _ => ()) m).symm
  rw [hmap, bind_eq_ok]
  refine exists_congr fun a => ⟨?_, fun h => ⟨c', h, rfl⟩⟩
  rintro ⟨c₁, hm, hpure⟩
  obtain ⟨-, rfl⟩ := Prod.mk.inj hpure
  exact hm

end Connection

namespace Engine

variable {c c' : Connection Database} {script : String}
  {f : Database → Except EngineFault Database}

/-! ## Scripts -/

theorem embedded_script : embedded.script = runScript := rfl

/-- A definition leaves the new database. -/
theorem define_eq_ok :
    (∃ o, define f c = (.ok o, c')) ↔ ∃ d, f c.database = .ok d ∧ c' = { c with database := d } := by
  have hrun : define f c = match f c.database with
      | .ok d => (.ok {}, { c with database := d })
      | .error fault => (.error fault, c) := by
    simp only [define, step, bind, Except.bind]
    rcases f c.database with _ | _ <;> rfl
  rw [hrun]
  rcases f c.database with fault | d
  · exact ⟨fun ⟨_, h⟩ => (nomatch h), fun ⟨_, h, _⟩ => (nomatch h)⟩
  · refine ⟨fun ⟨o, h⟩ => ⟨d, rfl, (Prod.mk.inj h).2.symm⟩, ?_⟩
    rintro ⟨_, hd, rfl⟩
    obtain rfl := Except.ok.inj hd
    exact ⟨{}, rfl⟩

/-- **A script that is one definition** does what the definition does. -/
theorem runScript_eq_ok {i : Instruction} (h : Instruction.listOfText? script = some [i])
    (hi : run [] i = define f) :
    runScript script c = (.ok (), c') ↔ ∃ d, f c.database = .ok d ∧ c' = { c with database := d } := by
  have hrun : runScript script = discard (define f) >>= fun _ => pure () := by
    unfold runScript
    rw [h, ← hi]
    rfl
  rw [hrun, Connection.bind_eq_ok, ← define_eq_ok, ← Connection.discard_eq_ok]
  constructor
  · rintro ⟨_, c₁, hdefine, hpure⟩
    obtain ⟨-, rfl⟩ := Prod.mk.inj hpure
    exact hdefine
  · exact fun hdefine => ⟨(), c', hdefine, rfl⟩

/-- A script that cannot be read is not run. -/
theorem runScript_ne_ok (h : Instruction.listOfText? script = none) :
    runScript script c ≠ (.ok (), c') := by
  unfold runScript
  rw [h]
  exact nofun

end Engine

namespace Migration

variable {δ : Type} {e : Engine δ} {ofFault : EngineFault → DatabaseError} {c c' : Connection δ}
  {script : String} {scripts others : List String}

/-! ## Scripts one after the other -/

theorem runScripts_cons_eq_ok :
    runScripts e ofFault (script :: scripts) c = (.ok (), c') ↔
      ∃ c₁, e.script script c = (.ok (), c₁) ∧ runScripts e ofFault scripts c₁ = (.ok (), c') := by
  rw [runScripts, Connection.bind_eq_ok]
  simp only [Connection.adapt_eq_ok]
  exact ⟨fun ⟨_, h⟩ => h, fun h => ⟨(), h⟩⟩

theorem runScripts_append_eq_ok :
    runScripts e ofFault (scripts ++ others) c = (.ok (), c') ↔
      ∃ c₁, runScripts e ofFault scripts c = (.ok (), c₁) ∧ runScripts e ofFault others c₁ = (.ok (), c') := by
  induction scripts generalizing c with
  | nil =>
    constructor
    · exact fun h => ⟨c, rfl, h⟩
    · rintro ⟨_, h, hothers⟩
      obtain ⟨-, rfl⟩ := Prod.mk.inj h
      exact hothers
  | cons script scripts ih =>
    simp only [List.cons_append, runScripts_cons_eq_ok, ih]
    constructor
    · rintro ⟨c₂, hscript, c₁, hscripts, hothers⟩
      exact ⟨c₁, ⟨c₂, hscript, hscripts⟩, hothers⟩
    · rintro ⟨c₁, ⟨c₂, hscript, hscripts⟩, hothers⟩
      exact ⟨c₂, hscript, c₁, hscripts, hothers⟩

section Items

variable {ι : Type} {f : ι → String} {items : List ι}

/-- **Scripts that all succeed run to the end**, by induction on them. What
holds after each of them may speak of those before it. -/
theorem exists_runScripts {I : List ι → δ → Prop} (hc : I [] c.database)
    (h : ∀ before i after, items = before ++ i :: after → ∀ c, I before c.database →
      ∃ c', e.script (f i) c = (.ok (), c') ∧ I (before ++ [i]) c'.database) :
    ∃ c', runScripts e ofFault (items.map f) c = (.ok (), c') ∧ I items c'.database := by
  induction items generalizing c I with
  | nil => exact ⟨c, rfl, hc⟩
  | cons i items ih =>
    obtain ⟨c₁, hscript, hc₁⟩ := h [] i items rfl c hc
    obtain ⟨c', hscripts, hc'⟩ := ih (I := fun before => I (i :: before)) hc₁
      fun before j after heq c hc => h (i :: before) j after (congrArg (i :: ·) heq) c hc
    exact ⟨c', runScripts_cons_eq_ok.2 ⟨c₁, hscript, hscripts⟩, hc'⟩

/-- **What scripts keep that succeed** holds once they have run to the end, by
induction on them. It may speak of those before each of them. -/
theorem of_runScripts {I : List ι → δ → Prop} (hc : I [] c.database)
    (hrun : runScripts e ofFault (items.map f) c = (.ok (), c'))
    (h : ∀ before i after, items = before ++ i :: after → ∀ c c', I before c.database →
      e.script (f i) c = (.ok (), c') → I (before ++ [i]) c'.database) : I items c'.database := by
  induction items generalizing c I with
  | nil =>
    obtain ⟨-, rfl⟩ := Prod.mk.inj hrun
    exact hc
  | cons i items ih =>
    obtain ⟨c₁, hscript, hscripts⟩ := runScripts_cons_eq_ok.1 hrun
    exact ih (I := fun before => I (i :: before)) (h [] i items rfl c c₁ hc hscript) hscripts
      fun before j after heq c c' hc => h (i :: before) j after (congrArg (i :: ·) heq) c c' hc

/-- What every script says that succeeds holds of all of them then. -/
theorem forall_of_runScripts {I : δ → Prop} {Q : ι → Prop} (hc : I c.database)
    (hrun : runScripts e ofFault (items.map f) c = (.ok (), c'))
    (h : ∀ i ∈ items, ∀ c c', I c.database → e.script (f i) c = (.ok (), c') → Q i ∧ I c'.database) :
    (∀ i ∈ items, Q i) ∧ I c'.database := by
  refine of_runScripts (I := fun before d => (∀ i ∈ before, Q i) ∧ I d) ⟨nofun, hc⟩ hrun
    fun before i after heq c c' ⟨hbefore, hc⟩ hscript => ?_
  have hi : i ∈ items := heq ▸ List.mem_append_right before List.mem_cons_self
  obtain ⟨hq, hc'⟩ := h i hi c c' hc hscript
  exact ⟨List.forall_mem_append.2 ⟨hbefore, List.forall_mem_singleton.2 hq⟩, hc'⟩

end Items

/-! ## Plans -/

variable {p : SchemaPlan}

/-- A plan whose tables are identifiers is not refused. -/
theorem validate_eq_ok (h : ∀ name ∈ p.tables, Identifier.isValid name = true) :
    (validate p : ConnectionM δ DatabaseError Unit) = pure () := by
  have hnone : p.invalidTable? = none := List.find?_eq_none.2 fun name hname => by simp [h name hname]
  rw [validate, hnone]

end Migration

end TypedTables

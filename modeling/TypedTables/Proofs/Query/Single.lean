import TypedTables.Proofs.Query.Setting
/-!
# TypedTables — a single row

To ask for a single row is to ask for all of them and to map the first one. A
local store is asked with a limit then, unless one was set; if it keeps to
limits, that changes neither which row is the first nor how the query fails.
Rows that come later are never mapped.
-/

namespace TypedTables

variable {σ α : Type}

/-! ## Limits that are kept to -/

/-- What is within a limit. -/
def Limit.cut {β : Type} (l : Limit) (xs : List β) : List β := (xs.drop l.offset).take l.count

theorem Limit.head?_cut_one {β : Type} (xs : List β) : (cut { count := 1 } xs).head? = xs.head? := by
  cases xs <;> rfl

/-- The rows of a cursor within a limit. -/
def Cursor.within (l : Limit) (c : Cursor) : Cursor := { c with rows := l.cut c.rows }

theorem Cursor.toRows_within (l : Limit) (c : Cursor) : (c.within l).toRows = l.cut c.toRows := by
  unfold within toRows Limit.cut
  rw [List.map_take, List.map_drop]

namespace Storage

/-- **A store keeps to limits**: it answers with the rows within the limit, of
those that it answers with when there is none, and fails in the same cases with
the same error. -/
structure HonoursLimits (store : Storage σ) : Prop where
  answer_eq : ∀ (request : SelectRequest) l w,
    ((store.select { request with limit := some l }).run w).1.map Cursor.toRows =
      ((store.select { request with limit := none }).run w).1.map fun c => l.cut c.toRows

/-- A store that cuts its own answers to the limit it is asked for. -/
def limiting (store : Storage σ) : Storage σ :=
  { store with
    select := fun request => do
      let c ← store.select { request with limit := none }
      return request.limit.elim c c.within }

/-- Every store can be made to keep to limits. -/
theorem honoursLimits_limiting (store : Storage σ) : store.limiting.HonoursLimits where
  answer_eq request l w := by
    unfold limiting
    simp only [run_bind_state]
    rcases (store.select { request with limit := none }).run w with ⟨_ | c, w'⟩
    · rfl
    · exact congrArg Except.ok (c.toRows_within l)

end Storage

/-! ## The first row -/

namespace Results

variable {r r' : Results α} {fault : MappingError} {x : α}

theorem first?_eq (r : Results α) : r.first? = r.toList.head?.elim (.ok none) (·.map some) := by
  unfold first? next? Cursor.next? toList Cursor.toRows
  rcases r.cursor.rows with _ | ⟨values, rows⟩ <;> rfl

theorem first?_eq_none_iff : r.first? = .ok none ↔ r.toList = [] := by
  rw [first?_eq]
  rcases r.toList with _ | ⟨_ | x, rest⟩ <;> simp [Except.map]

theorem first?_eq_some_iff : r.first? = .ok (some x) ↔ ∃ rest, r.toList = .ok x :: rest := by
  rw [first?_eq]
  rcases r.toList with _ | ⟨_ | x, rest⟩ <;> simp [Except.map]

theorem first?_eq_error_iff : r.first? = .error fault ↔ ∃ rest, r.toList = .error fault :: rest := by
  rw [first?_eq]
  rcases r.toList with _ | ⟨_ | x, rest⟩ <;> simp [Except.map]

/-- **Of all rows only the first one matters.** -/
theorem first?_congr (hmapping : r.mapping = r'.mapping)
    (h : r.cursor.toRows.head? = r'.cursor.toRows.head?) : r.first? = r'.first? := by
  rw [first?_eq, first?_eq, toList, toList, List.head?_map, List.head?_map, h, hmapping]

end Results

/-- Two answers say the same of the first row, if one has the rows of the other
within a limit of one. -/
theorem first_answer_eq {m : Mapping α} {cut full : Except StorageError Cursor}
    (h : cut.map Cursor.toRows = full.map fun c => Limit.cut { count := 1 } c.toRows) :
    (Results.mk m <$> cut.mapError .storage >>= fun r => r.first?.mapError QueryError.mapping) =
      (Results.mk m <$> full.mapError .storage >>= fun r => r.first?.mapError .mapping) := by
  rcases cut with error | c <;> rcases full with error' | c'
  -- both fail or both answer, and an error is the same error
  · exact congrArg (fun e => Except.error (QueryError.storage e)) (Except.error.inj h)
  · nomatch h
  · nomatch h
  · have hrows : c.toRows = Limit.cut { count := 1 } c'.toRows := Except.ok.inj h
    refine congrArg (Except.mapError QueryError.mapping) (Results.first?_congr rfl ?_)
    rw [hrows, Limit.head?_cut_one]

/-! ## Asking for one -/

namespace Select

variable {m : Mapping α} {store : Storage σ} {s : Select} {w : σ}

/-- A limit is handed on as it is set, and concerns nothing else. -/
theorem request_limit (l : Limit) : { s with limit := some l }.request m =
    (fun request => { request with limit := some l }) <$> s.request m := by
  unfold request
  rcases Join.compileAll s.joins with _ | joins
  · rfl
  rcases Clause.compileOption s.filter with _ | selection
  · rfl
  rcases Clause.compileOption s.having with _ | having <;> rfl

/-- A local store is asked for whatever can be compiled. -/
theorem answer_query_of_local (hlocal : store.kind = .local) : ((s.query m store).run w).1 =
    ((s.request m).mapError .clause >>= fun request =>
      Results.mk m <$> ((store.select request).run w).1.mapError .storage) := by
  have htaken : ∀ feature, requireLocal store.kind feature = .ok () := fun feature =>
    requireLocal_eq_ok_iff.2 fun hcontent => nomatch hlocal.symm.trans hcontent
  unfold query
  simp only [htaken]
  rw [run_bind_state]
  rcases s.request m with fault | request
  · rfl
  change _ = Results.mk m <$> ((store.select request).run w).1.mapError QueryError.storage
  refine (congrArg Prod.fst (run_bind_state (QueryM.ofStore (store.select request)) _ w)).trans ?_
  rw [QueryM.run_ofStore]
  rcases (store.select request).run w with ⟨_ | c, w'⟩ <;> rfl

theorem answer_querySingle_eq : ((s.querySingle m store).run w).1 =
    (((s.single store.kind).query m store).run w).1 >>= fun r => r.first?.mapError .mapping := by
  unfold querySingle
  rw [run_bind_state]
  rcases ((s.single store.kind).query m store).run w with ⟨_ | r, w'⟩ <;> rfl

/-- **A single row is the first one** of the same query. -/
theorem answer_querySingle (h : store.kind = .local → store.HonoursLimits) :
    ((s.querySingle m store).run w).1 =
      ((s.query m store).run w).1 >>= fun r => r.first?.mapError .mapping := by
  rw [answer_querySingle_eq, single_eq]
  split
  -- the limit comes before everything else, so it has to be followed through the request
  · next hset =>
    obtain ⟨hlocal, hnone⟩ := hset
    rw [answer_query_of_local hlocal, answer_query_of_local hlocal, request_limit]
    rcases hs : s.request m with fault | request
    · rfl
    -- nothing was set, so the request for all rows is the one without a limit
    · have hlimit : request = { request with limit := none } := by
        rw [← hnone, ← (request_ok hs).2.2.2]
      have hanswer := (h hlocal).answer_eq request { count := 1 } w
      rw [← hlimit] at hanswer
      exact first_answer_eq hanswer
  · rfl

end Select

/-- **A single row is the first of all rows**, however the select is set and
whatever store is asked, as long as a local store keeps to limits. The query
fails if the query for all rows fails, or if the first row cannot be mapped, and
with that error; without rows there is none; and otherwise it is the first row,
mapped. Rows after it do not matter, so they may be such as cannot be mapped. -/
theorem single_is_first_row (m : Mapping α) (store : Storage σ)
    (h : store.kind = .local → store.HonoursLimits) (xs : List SelectSetting) (w : σ) :
    let one : Except QueryError (Option α) := ((BuilderKind.select m store).executed xs .single w).1
    let all : Except QueryError (Results α) := ((BuilderKind.select m store).executed xs .query w).1
    (∀ error, one = .error error ↔ all = .error error ∨ ∃ results fault rest, all = .ok results ∧
      results.toList = .error fault :: rest ∧ error = .mapping fault) ∧
    (one = .ok none ↔ ∃ results, all = .ok results ∧ results.toList = []) ∧
    ∀ x, one = .ok (some x) ↔ ∃ results rest, all = .ok results ∧ results.toList = .ok x :: rest := by
  intro one all
  have hone : one = all >>= fun r => r.first?.mapError .mapping := by
    have hsingle := congrArg Prod.fst (BuilderKind.executed_select m store xs .single w)
    have hquery := congrArg Prod.fst (BuilderKind.executed_select m store xs .query w)
    exact hsingle.trans ((Select.answer_querySingle h).trans (congrArg (· >>= _) hquery.symm))
  rw [hone]
  refine ⟨fun error => ?_, ?_, fun x => ?_⟩
  · simp only [bind_eq_error_iff, mapError_eq_error, Results.first?_eq_error_iff]
    refine or_congr_right ⟨?_, ?_⟩
    · rintro ⟨results, hall, fault, ⟨rest, hrows⟩, rfl⟩
      exact ⟨results, fault, rest, hall, hrows, rfl⟩
    · rintro ⟨results, fault, rest, hall, hrows, rfl⟩
      exact ⟨results, hall, fault, ⟨rest, hrows⟩, rfl⟩
  · simp only [bind_eq_ok, mapError_eq_ok, Results.first?_eq_none_iff]
  · simp only [bind_eq_ok, mapError_eq_ok, Results.first?_eq_some_iff, exists_and_left]

/-- Two contacts in a local store, of which the second one has no name of the
right type. All of them cannot be had, but the first one can. -/
theorem single_is_first_row_contacts :
    let rows := [[.integer 1, .text "Ann", .integer 1], [.integer 2, .integer 0, .integer 0]]
    let store := (Storage.scripted .local { columns := ["_id", "display_name", "starred"], rows }).limiting
    let k := BuilderKind.select Sample.Contact.mapping store
    let ann : Sample.Contact := { id := ⟨1, by decide⟩, displayName := some "Ann", starred := true }
    store.HonoursLimits ∧ (k.executed [] .single []).1 = .ok (some ann) ∧
      ∃ fault, (k.executed [] .all []).1 = .error (.mapping fault) := by
  intro rows store k ann
  have hlimits : store.HonoursLimits := Storage.honoursLimits_limiting _
  obtain ⟨-, -, hsome⟩ := single_is_first_row Sample.Contact.mapping store (fun _ => hlimits) [] []
  exact ⟨hlimits, (hsome ann).2 ⟨_, _, rfl, rfl⟩, _, rfl⟩

end TypedTables

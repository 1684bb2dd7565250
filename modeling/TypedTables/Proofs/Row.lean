import Mathlib.Data.List.Nodup
import TypedTables.Row
/-!
# TypedTables — the row of a payload

A payload is a map that keeps the order in which its columns were first put.
`Values.Keeps` says so of a payload and the pairs that were put into it; it is
kept by every further put, and so it holds of whatever is collected. Pairs whose
columns are different are collected as they are, and the row that is stored shows
under each of its columns what was written there.
-/

namespace TypedTables

namespace Values

variable {column : String} {value : Value} {es puts : List (String × Value)} {vs : Values}

theorem putEntry_of_notMem (h : column ∉ es.map Prod.fst) :
    putEntry column value es = es ++ [(column, value)] := by
  induction es with
  | nil => rfl
  | cons e es ih =>
    obtain ⟨c, v⟩ := e
    rw [List.map_cons, List.mem_cons, not_or] at h
    unfold putEntry
    rw [if_neg (Ne.symm h.1), ih h.2, List.cons_append]

/-- A column that is there is put in its place. -/
theorem columns_putEntry_of_mem (h : column ∈ es.map Prod.fst) :
    (putEntry column value es).map Prod.fst = es.map Prod.fst := by
  induction es with
  | nil => cases h
  | cons e es ih =>
    obtain ⟨c, v⟩ := e
    unfold putEntry
    split
    case isTrue => rfl
    case isFalse hne =>
      have hmem : column ∈ es.map Prod.fst := (List.mem_cons.1 h).resolve_left (Ne.symm hne)
      rw [List.map_cons, List.map_cons, ih hmem]

/-- **What was put last is found**, and the other columns keep their values. -/
theorem lookup_putEntry (es : List (String × Value)) (column other : String) (value : Value) :
    (putEntry column value es).lookup other = if other = column then some value else es.lookup other := by
  induction es with
  | nil =>
    rw [putEntry, List.lookup_cons, List.lookup_nil]
    by_cases ho : other = column
    · rw [if_pos ho, beq_iff_eq.2 ho]
    · rw [if_neg ho, beq_false_of_ne ho]
  | cons e es ih =>
    obtain ⟨c, v⟩ := e
    unfold putEntry
    by_cases hc : c = column
    · subst hc
      rw [if_pos rfl, List.lookup_cons, List.lookup_cons]
      by_cases ho : other = c
      · rw [ho, beq_self_eq_true, if_pos rfl]
      · rw [beq_false_of_ne ho, if_neg ho]
    · rw [if_neg hc, List.lookup_cons, List.lookup_cons, ih]
      by_cases ho : other = c
      · have hne : other ≠ column := fun h => hc (ho.symm.trans h)
        simp only [beq_iff_eq.2 ho, if_neg hne]
      · rw [beq_false_of_ne ho]

/-- Where columns are different, each has its own value. -/
theorem lookup_of_mem (hnodup : (es.map Prod.fst).Nodup) {e : String × Value} (he : e ∈ es) :
    es.lookup e.1 = some e.2 := by
  induction es with
  | nil => cases he
  | cons first es ih =>
    rw [List.map_cons, List.nodup_cons] at hnodup
    rw [List.lookup_cons]
    rcases List.mem_cons.1 he with rfl | he
    · rw [beq_self_eq_true]
    · have hne : e.1 ≠ first.1 := fun h => hnodup.1 (h ▸ List.mem_map_of_mem he)
      rw [beq_false_of_ne hne]
      exact ih hnodup.2 he

/-- **Different columns are put one after the other**: none is in the way of
another. -/
theorem ofList_of_nodup (h : (es.map Prod.fst).Nodup) :
    ofList es = ⟨es⟩ := by
  have hcollect : ∀ (done rest : List (String × Value)), ((done ++ rest).map Prod.fst).Nodup →
      rest.foldl (fun vs e => vs.put e.1 e.2) (⟨done⟩ : Values) = ⟨done ++ rest⟩ := by
    intro done rest
    induction rest generalizing done with
    | nil =>
      intro _
      rw [List.append_nil, List.foldl_nil]
    | cons e rest ih =>
      intro hnodup
      have hnew : e.1 ∉ done.map Prod.fst := by
        rw [List.map_append, List.map_cons, List.nodup_append] at hnodup
        intro hmem
        exact hnodup.2.2 e.1 hmem e.1 List.mem_cons_self rfl
      have hput : (⟨done⟩ : Values).put e.1 e.2 = ⟨done ++ [e]⟩ :=
        congrArg Values.mk (putEntry_of_notMem hnew)
      rw [List.append_cons] at hnodup ⊢
      rw [List.foldl_cons, hput, ih (done ++ [e]) hnodup]
  exact hcollect [] es h

/-! ## A map in the order of its columns -/

/-- The last value that was put for a column. -/
def lastPut (puts : List (String × Value)) (column : String) : Option Value :=
  (puts.filter fun p => p.1 == column).getLast?.map Prod.snd

/-- **What a payload keeps of the pairs that were put into it**: each column once,
in the order in which the columns were put first, with the value that was put
last. -/
structure Keeps (vs : Values) (puts : List (String × Value)) : Prop where
  columns_nodup : vs.columns.Nodup
  mem_columns : ∀ c, c ∈ vs.columns ↔ c ∈ puts.map Prod.fst
  /-- `List.idxOf` is the place of the first put. -/
  columns_areOrdered : vs.columns.Pairwise fun a b =>
    (puts.map Prod.fst).idxOf a < (puts.map Prod.fst).idxOf b
  get?_eq : ∀ c, vs.get? c = lastPut puts c

theorem lastPut_eq_none_iff : lastPut puts column = none ↔ column ∉ puts.map Prod.fst := by
  rw [lastPut, Option.map_eq_none_iff, List.getLast?_eq_none_iff, List.filter_eq_nil_iff, List.mem_map]
  constructor
  · rintro h ⟨p, hp, rfl⟩
    exact h p hp (beq_self_eq_true p.1)
  · intro h p hp heq
    exact h ⟨p, hp, beq_iff_eq.1 heq⟩

theorem lastPut_concat (c : String) :
    lastPut (puts ++ [(column, value)]) c = if c = column then some value else lastPut puts c := by
  rw [lastPut, List.filter_append]
  by_cases hc : c = column
  · rw [if_pos hc, List.filter_singleton, hc, beq_self_eq_true, cond_true, List.getLast?_concat]
    rfl
  · rw [if_neg hc, List.filter_singleton, beq_false_of_ne (Ne.symm hc), cond_false, List.append_nil, lastPut]

theorem keeps_empty : Keeps empty [] where
  columns_nodup := .nil
  mem_columns _ := Iff.rfl
  columns_areOrdered := .nil
  get?_eq _ := rfl

/-- **One put more.** A column that is there keeps its place, as it had been put
before, and a new one comes behind all others. -/
theorem Keeps.put (h : vs.Keeps puts) (column : String) (value : Value) :
    (vs.put column value).Keeps (puts ++ [(column, value)]) := by
  have hget : ∀ c, (vs.put column value).get? c = lastPut (puts ++ [(column, value)]) c := by
    intro c
    rw [lastPut_concat, ← h.get?_eq]
    exact lookup_putEntry vs.entries column c value
  have hnames : (puts ++ [(column, value)]).map Prod.fst = puts.map Prod.fst ++ [column] := List.map_append
  have hkept : ∀ c ∈ vs.columns,
      (puts.map Prod.fst ++ [column]).idxOf c = (puts.map Prod.fst).idxOf c := by
    intro c hc
    exact List.idxOf_append_of_mem ((h.mem_columns c).1 hc)
  have hordered : vs.columns.Pairwise fun a b =>
      (puts.map Prod.fst ++ [column]).idxOf a < (puts.map Prod.fst ++ [column]).idxOf b := by
    refine h.columns_areOrdered.imp_of_mem fun {a b} ha hb hab => ?_
    rw [hkept a ha, hkept b hb]
    exact hab
  by_cases hmem : column ∈ vs.columns
  · have hcolumns : (vs.put column value).columns = vs.columns := columns_putEntry_of_mem hmem
    refine ⟨hcolumns ▸ h.columns_nodup, fun c => ?_, ?_, hget⟩
    · rw [hcolumns, hnames, List.mem_append, List.mem_singleton, h.mem_columns]
      refine ⟨.inl, fun hc => hc.elim id fun he => ?_⟩
      rw [he]
      exact (h.mem_columns column).1 hmem
    · rw [hcolumns, hnames]
      exact hordered
  · have hcolumns : (vs.put column value).columns = vs.columns ++ [column] := by
      show (putEntry column value vs.entries).map Prod.fst = _
      rw [putEntry_of_notMem hmem, List.map_append]
      rfl
    have hnew : column ∉ puts.map Prod.fst := fun hc => hmem ((h.mem_columns column).2 hc)
    refine ⟨?_, fun c => ?_, ?_, hget⟩
    · rw [hcolumns, List.nodup_append]
      refine ⟨h.columns_nodup, List.nodup_singleton column, fun a ha b hb hab => hmem ?_⟩
      rw [← List.mem_singleton.1 hb, ← hab]
      exact ha
    · rw [hcolumns, hnames, List.mem_append, List.mem_append, h.mem_columns]
    · rw [hcolumns, hnames, List.pairwise_append]
      refine ⟨hordered, List.pairwise_singleton _ column, fun a ha b hb => ?_⟩
      -- the first put of the new column is behind all that were put before it
      obtain rfl := List.mem_singleton.1 hb
      rw [hkept a ha, List.idxOf_append_of_notMem hnew, List.idxOf_cons_self, Nat.add_zero]
      exact List.idxOf_lt_length_of_mem ((h.mem_columns a).1 ha)

/-- **However a payload is collected, it keeps what was put.** -/
theorem keeps_ofList (puts : List (String × Value)) : (ofList puts).Keeps puts := by
  have hfold : ∀ (done rest : List (String × Value)) (vs : Values), vs.Keeps done →
      (rest.foldl (fun vs e => vs.put e.1 e.2) vs).Keeps (done ++ rest) := by
    intro done rest
    induction rest generalizing done with
    | nil =>
      intro vs h
      rw [List.append_nil]
      exact h
    | cons e rest ih =>
      intro vs h
      rw [List.append_cons]
      exact ih (done ++ [e]) _ (h.put e.1 e.2)
  exact hfold [] puts empty keeps_empty

/-- A value is put for every column that is kept. -/
theorem Keeps.map_some_values (h : vs.Keeps puts) : vs.values.map some = vs.columns.map (lastPut puts) := by
  rw [values, columns, List.map_map, List.map_map]
  refine List.map_congr_left fun e he => ?_
  show some e.2 = lastPut puts e.1
  rw [← h.get?_eq, get?]
  exact (lookup_of_mem h.columns_nodup he).symm

/-- The row of a payload shows under each column the value that was put last. -/
theorem Keeps.toRow_eq (h : vs.Keeps puts) (columns : List String) :
    vs.toRow columns = ⟨columns, columns.map fun c => (lastPut puts c).getD .null⟩ := by
  rw [toRow, funext fun c => congrArg (Option.getD · Value.null) (h.get?_eq c)]

/-- **To leave out a column** is to leave out its entry. -/
theorem Keeps.entries_without (h : vs.Keeps puts) (column : String) :
    (vs.without column).entries = vs.entries.filter fun e => e.1 != column := by
  have hnodup : ((vs.entries.filter fun e => e.1 != column).map Prod.fst).Nodup :=
    h.columns_nodup.sublist (List.filter_sublist.map Prod.fst)
  rw [without, ofList_of_nodup hnodup]

end Values

/-- **A stored row shows what was written**, and nothing where nothing was. -/
theorem Row.value?_toRow (vs : Values) {columns : List String} {c : String} (h : c ∈ columns) :
    (vs.toRow columns).value? c = some ((vs.get? c).getD .null) := by
  unfold Row.value? Values.toRow
  induction columns with
  | nil => cases h
  | cons d columns ih =>
    rw [List.map_cons, List.zip_cons_cons, List.lookup_cons]
    by_cases hc : c = d
    · rw [hc, beq_self_eq_true]
    · rw [beq_false_of_ne hc]
      exact ih ((List.mem_cons.1 h).resolve_left hc)

theorem Row.value_toRow (vs : Values) {columns : List String} {c : String} (h : c ∈ columns) :
    (vs.toRow columns).value c = .ok ((vs.get? c).getD .null) := by
  rw [value, value?_toRow vs h]

end TypedTables

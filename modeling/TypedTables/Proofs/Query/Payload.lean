import TypedTables.Proofs.Row
import TypedTables.Proofs.Sql.Statement
import TypedTables.Query.Update
import TypedTables.Sample
/-!
# TypedTables — payloads in statements

What an insert and an update make of a payload. The columns, the placeholders
and the arguments of a statement come from the payload one by one, and all of
them in the order in which the columns were put first; so each column is named
once, and its own placeholder is bound to the value that was put for it last.
-/

namespace TypedTables

open Values (lastPut)

/-! ## Parts among parts -/

/-- **A part stands behind the values of those before it.** -/
theorem Piece.among_of_getElem? {ps : List Piece} {i : Nat} {q : Piece} (h : ps[i]? = some q) :
    Among ps ((ps.take i).flatMap arguments) q := by
  induction ps generalizing i with
  | nil => cases h
  | cons p ps ih =>
    rcases i with _ | i
    · obtain rfl := Option.some.inj h
      exact .first .self
    · rw [List.take_succ_cons, List.flatMap_cons]
      exact .later (ih h)

/-- **A statement writes a payload**: behind its start it has a place for each
column, in the order in which they were put first, and the first arguments are
the values that were put last. -/
structure Sql.Writes (s : Sql) (puts : List (String × Value)) (columns : List String) (start : String)
    (place : String → String) (rest : Sql) : Prop where
  text_eq : s.text = start ++ String.intercalate ", " (columns.map place) ++ rest.text
  args_eq : s.args.map some = columns.map (lastPut puts) ++ rest.args.map some

namespace Statement

variable {vs : Values} {puts : List (String × Value)} {table : String} {selection : Sql}

/-- A part of the only part of a statement stands behind the values of the parts before it. -/
theorem holds_of_carries {s : Sql} {p q : Piece} {ps : List Piece} {i : Nat} (h : s.Carries (p :: ps))
    (hq : p.children[i]? = some q) {written : Sql} (hw : q.sql = .ok written) :
    s.Holds ((p.children.take i).flatMap Piece.arguments) written := by
  obtain ⟨found, hfound, -, hholds⟩ :=
    h.places _ q (.first (.inside (Piece.among_of_getElem? hq)))
  obtain rfl := Except.ok.inj (hw.symm.trans hfound)
  exact hholds

/-- An insert has the columns in its start, and a placeholder for each of them. -/
theorem writes_insert (h : vs.Keeps puts) (policy : ConflictPolicy) (hne : vs.columns ≠ []) :
    (insert table vs policy).Writes puts vs.columns ("INSERT OR " ++ policy.sql ++ " INTO " ++ table ++ " (" ++
      String.intercalate ", " vs.columns ++ ") VALUES (") (fun _ => "?") (.lit ")") := by
  have hentries : vs.isEmpty = false := by
    rcases vs with ⟨_ | _⟩
    · exact absurd rfl hne
    · rfl
  have hplaces : vs.values.map (Sql.text ∘ Sql.bind) = vs.columns.map fun _ => "?" := by
    rw [Values.values, Values.columns, List.map_map, List.map_map]
    rfl
  unfold insert
  rw [hentries, if_neg Bool.false_ne_true]
  constructor
  · simp only [Sql.text_append, Sql.text_lit, Sql.text_parens, Sql.join, List.map_map, hplaces, String.append_assoc]
    rfl
  · rw [Sql.args_append, Sql.args_parens, Sql.args_lit, List.nil_append, Sql.join, List.flatMap_map,
      ← h.map_some_values, Sql.args_lit, List.map_nil, List.append_nil]
    exact congrArg (List.map some) (List.flatMap_singleton' vs.values)

/-- An update names each column in front of its placeholder. -/
theorem writes_update (h : vs.Keeps puts) :
    (update table vs selection).Writes puts vs.columns ("UPDATE " ++ table ++ " SET ") (· ++ " = ?")
      (whereClause selection) := by
  have hplaces : vs.entries.map (Sql.text ∘ assignment) = vs.columns.map (· ++ " = ?") := by
    rw [Values.columns, List.map_map]
    refine List.map_congr_left fun e _ => ?_
    simp [assignment, String.append_assoc]
  have hvalues : (vs.entries.map assignment).flatMap Sql.args = vs.values := by
    rw [List.flatMap_map, Values.values, List.map_eq_flatMap]
    rfl
  constructor
  · rw [update, Sql.text_append, Sql.text_append, Sql.text_lit, Sql.join, List.map_map, hplaces]
  · rw [update, Sql.args_append, Sql.args_append, Sql.args_lit, List.nil_append, Sql.join, hvalues,
      List.map_append, h.map_some_values]

/-- A payload without columns takes the defaults of its table. -/
theorem insert_of_columns_eq_nil (policy : ConflictPolicy) (h : vs.columns = []) :
    insert table vs policy = .lit ("INSERT OR " ++ policy.sql ++ " INTO " ++ table ++ " DEFAULT VALUES") := by
  have hentries : vs.isEmpty = true := List.isEmpty_iff.2 (List.map_eq_nil_iff.1 h)
  unfold insert
  rw [hentries, if_pos rfl]

/-- **Each value of an insert has its placeholder** behind those of the columns
before its own. -/
theorem holds_insert (policy : ConflictPolicy) (ht : Sql.marks table = 0)
    (hc : ∀ c ∈ vs.columns, Sql.marks c = 0) {i : Nat} {e : String × Value} (he : vs.entries[i]? = some e) :
    (insert table vs policy).Holds (vs.values.take i) (.bind e.2) := by
  have hchild : (Piece.row vs.values).children[i]? = some (.argument e.2) := by
    show (vs.values.map Piece.argument)[i]? = _
    rw [List.getElem?_map, Values.values, List.getElem?_map, he]
    rfl
  have hholds := holds_of_carries (carries_insert policy ht hc) hchild rfl
  -- each piece of the row before this one has one argument
  have hbefore : ((Piece.row vs.values).children.take i).flatMap Piece.arguments = vs.values.take i := by
    show ((vs.values.map Piece.argument).take i).flatMap Piece.arguments = _
    rw [← List.map_take, List.flatMap_map]
    exact List.flatMap_singleton' _
  rwa [hbefore] at hholds

theorem balanced_whereClause (h : selection.Balanced) : (whereClause selection).Balanced := by
  have hstart : Sql.marks " WHERE " = 0 := by decide
  unfold whereClause
  split
  · exact Sql.balanced_empty
  · exact Sql.Balanced.append hstart h

/-- **Each assignment of an update stands** behind those before it. -/
theorem holds_update (ht : Sql.marks table = 0) (hc : ∀ c ∈ vs.columns, Sql.marks c = 0)
    (hs : selection.Balanced) {i : Nat} {e : String × Value} (he : vs.entries[i]? = some e) :
    (update table vs selection).Holds (vs.values.take i) (assignment e) := by
  have hset : (Sql.join ", " (vs.entries.map assignment)).Carries [.assignments vs.entries] :=
    Piece.carries (fun entry hentry => hc entry.1 (List.mem_map_of_mem hentry)) rfl
  have hchild : (Piece.assignments vs.entries).children[i]? = some (.assignment e) := by
    show (vs.entries.map Piece.assignment)[i]? = _
    rw [List.getElem?_map, he]
    rfl
  have hholds := holds_of_carries hset hchild rfl
  have hbefore : ((Piece.assignments vs.entries).children.take i).flatMap Piece.arguments =
      vs.values.take i := by
    show ((vs.entries.map Piece.assignment).take i).flatMap Piece.arguments = _
    rw [← List.map_take, List.flatMap_map, Values.values, ← List.map_take, List.map_eq_flatMap]
    rfl
  rw [hbefore] at hholds
  have hstart : (Sql.lit ("UPDATE " ++ table ++ " SET ")).Balanced := by
    show Sql.marks ("UPDATE " ++ table ++ " SET ") = 0
    rw [Sql.marks_append, Sql.marks_append, ht]
    decide
  exact (hholds.append_left hstart).append_right (balanced_whereClause hs)

end Statement

/-! ## What is written -/

/-- **What statements make of a payload.** Each column is named once, in the
order of the payload. The places of the columns come in the same order, and so do
the arguments; where no name has a placeholder in it, as many placeholders stand
before that of a column as there are columns before it. -/
structure Values.AreWritten (vs : Values) (puts : List (String × Value)) : Prop where
  insert_nil : vs.columns = [] → ∀ table (policy : ConflictPolicy), Statement.insert table vs policy =
    .lit ("INSERT OR " ++ policy.sql ++ " INTO " ++ table ++ " DEFAULT VALUES")
  insert_writes : vs.columns ≠ [] → ∀ table (policy : ConflictPolicy),
    (Statement.insert table vs policy).Writes puts vs.columns ("INSERT OR " ++ policy.sql ++ " INTO " ++ table ++
      " (" ++ String.intercalate ", " vs.columns ++ ") VALUES (") (fun _ => "?") (.lit ")")
  update_writes : ∀ table selection, (Statement.update table vs selection).Writes puts vs.columns
    ("UPDATE " ++ table ++ " SET ") (· ++ " = ?") (Statement.whereClause selection)
  insert_holds : ∀ table policy, Sql.marks table = 0 → (∀ c ∈ vs.columns, Sql.marks c = 0) →
    ∀ (i : Nat) (e : String × Value), vs.entries[i]? = some e →
      (Statement.insert table vs policy).Holds (vs.values.take i) (.bind e.2)
  update_holds : ∀ table selection, Sql.marks table = 0 → (∀ c ∈ vs.columns, Sql.marks c = 0) →
    selection.Balanced → ∀ (i : Nat) (e : String × Value), vs.entries[i]? = some e →
      (Statement.update table vs selection).Holds (vs.values.take i) (Statement.assignment e)

theorem Values.Keeps.areWritten {vs : Values} {puts : List (String × Value)} (h : vs.Keeps puts) :
    vs.AreWritten puts where
  insert_nil hnil _ policy := Statement.insert_of_columns_eq_nil policy hnil
  insert_writes hne _ policy := Statement.writes_insert h policy hne
  update_writes _ _ := Statement.writes_update h
  insert_holds _ policy ht hc _ _ he := Statement.holds_insert policy ht hc he
  update_holds _ _ ht hc hs _ _ he := Statement.holds_update ht hc hs he

/-- **An update by a struct writes its payload but for the key**, column by
column as it is. -/
theorem Update.entries_set_model {α : Type} {m : Mapping α} {x : α} {puts : List (String × Value)}
    (h : (m.toValues x).Keeps puts) (s : Update) :
    (set m (.model x) s).values.entries = (m.toValues x).entries.filter fun e => e.1 != m.keyColumn :=
  h.entries_without m.keyColumn

/-- **A payload is a map in the order of its columns.** Whatever pairs are put,
one after the other, each column is kept once, at the place where it was put
first and with the value that was put last; a row shows that value under it, or
none. So statements name each column once and bind its placeholder to that value,
and an update by a struct leaves out the key and nothing else. -/
theorem payloads_are_ordered_maps (puts : List (String × Value)) :
    (Values.ofList puts).Keeps puts ∧
      (∀ c, (Values.ofList puts).get? c = none ↔ c ∉ puts.map Prod.fst) ∧
      (∀ columns, (Values.ofList puts).toRow columns =
        ⟨columns, columns.map fun c => (lastPut puts c).getD .null⟩) ∧
      (Values.ofList puts).AreWritten puts ∧
      ∀ {α : Type} (m : Mapping α) (x : α) (s : Update), m.toValues x = Values.ofList puts →
        (Update.set m (.model x) s).values.entries =
            (Values.ofList puts).entries.filter (fun e => e.1 != m.keyColumn) ∧
          (Update.set m (.model x) s).values.columns =
            (Values.ofList puts).columns.filter fun c => c != m.keyColumn := by
  have hkeeps := Values.keeps_ofList puts
  refine ⟨hkeeps, fun c => ?_, hkeeps.toRow_eq, hkeeps.areWritten, fun m x s hx => ?_⟩
  · rw [hkeeps.get?_eq, Values.lastPut_eq_none_iff]
  · have hentries := Update.entries_set_model (m := m) (hx ▸ hkeeps) s
    rw [hx] at hentries
    refine ⟨hentries, ?_⟩
    rw [Values.columns, hentries, Values.columns, List.filter_map]
    rfl

/-- A post whose slug is put twice. -/
def renamedPost : List (String × Value) :=
  [("slug", .text "draft"), ("user_id", .integer 7), ("title", .text "Emma"), ("slug", .text "emma")]

/-- The slug stays in front with its last value, and an update leaves it out. -/
theorem payloads_are_ordered_maps_post :
    (Values.ofList renamedPost).columns = ["slug", "user_id", "title"] ∧
      (Values.ofList renamedPost).get? "slug" = some (.text "emma") ∧
      (Statement.insert "posts" (Values.ofList renamedPost) .abort).Holds [.text "emma"] (.bind (.integer 7)) ∧
      ∃ x : Sample.Post, Sample.Post.mapping.toValues x = Values.ofList renamedPost ∧
        (Update.set Sample.Post.mapping (.model x) {}).values.columns = ["user_id", "title"] := by
  obtain ⟨hkeeps, -, -, hwritten, hupdate⟩ := payloads_are_ordered_maps renamedPost
  have hpost : Sample.Post.mapping.toValues ⟨"emma", ⟨7, by decide⟩, "Emma", none⟩ =
      Values.ofList renamedPost := by decide +kernel
  refine ⟨by decide +kernel, hkeeps.get?_eq "slug", ?_, _, hpost, ?_⟩
  · exact hwritten.insert_holds "posts" .abort (by decide) (by decide +kernel) 1 ("user_id", .integer 7)
      (by decide +kernel)
  · rw [(hupdate Sample.Post.mapping _ {} hpost).2]
    decide +kernel

end TypedTables

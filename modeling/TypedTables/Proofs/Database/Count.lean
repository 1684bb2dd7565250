import TypedTables.Proofs.Database.Instruction
import TypedTables.Proofs.Database.Plan
import TypedTables.Proofs.Database.Run
/-!
# TypedTables — counting the rows of a table

The query that counts a table is read as one column of the answer, without a
condition, and of a table without rows it answers zero. Both are needed to ask
for the status of a table that was created just now.
-/

namespace TypedTables

/-- The query that counts the rows of a table. -/
def SelectQuery.counting (table spelling : String) : SelectQuery :=
  { columns := [.term .rowCount none spelling], source := some table }

namespace SqlReader

namespace Reads

variable {ks rest : List TokenKind} {C : Prop} {P : NamedTerm → Prop} {side : SqlReader NamedTerm}
  {fuel : Nat}

/-- Words that a term can go on with. -/
def termWords : List String := ["is", "isnull", "notnull", "not", "in", "like", "between", "and", "or"]

/-- **Tokens that a term does not go on with**: a word first, and none of those. -/
def EndsTerm (ks : List TokenKind) : Prop :=
  ∃ w ks', ks = .word w :: ks' ∧ ∀ v ∈ termWords, Keyword.same w v = false

theorem EndsTerm.not_symbol (h : EndsTerm ks) (w : String) : .symbol w ∉ ks.head? := by
  obtain ⟨v, ks', rfl, -⟩ := h
  simp

theorem EndsTerm.not_word (h : EndsTerm ks) {w : String} (hw : w ∈ termWords) :
    ∀ k ∈ ks.head?, k.isWord w = false := by
  obtain ⟨v, ks', rfl, hall⟩ := h
  intro k hk
  obtain rfl := Option.some.inj hk
  exact hall w hw

theorem EndsTerm.not_words (h : EndsTerm ks) {w : String} {ws : List String} (hw : w ∈ termWords) :
    TokenKind.startWith (w :: ws) ks = false :=
  startWith_of_head (h.not_word hw)

/-! ## A term that is one operand -/

theorem moreRelation_none (h : EndsTerm rest) {a : NamedTerm} :
    Reads (moreRelation side a) rest rest True (· = none) :=
  (symbol?_neg (h.not_symbol _)).passed <| (symbol?_neg (h.not_symbol _)).passed <|
    (symbol?_neg (h.not_symbol _)).passed <| (symbol?_neg (h.not_symbol _)).passed <| .pure rfl

theorem test?_none (h : EndsTerm rest) {inner : SqlReader NamedTerm} {a : NamedTerm} :
    Reads (test? inner side a) rest rest True (· = none) :=
  (keyword?_neg (h.not_word (by simp [termWords]))).passed <|
    (keyword?_neg (h.not_word (by simp [termWords]))).passed <|
      (keyword?_neg (h.not_word (by simp [termWords]))).passed <| .pure rfl

theorem moreEquality_none (h : EndsTerm rest) {inner : SqlReader NamedTerm} {a : NamedTerm} :
    Reads (moreEquality inner side a) rest rest True (· = none) :=
  (symbol?_neg (h.not_symbol _)).passed <| (symbol?_neg (h.not_symbol _)).passed <|
    (keywords?_neg (h.not_words (by simp [termWords]))).passed <|
      (keyword?_neg (h.not_word (by simp [termWords]))).passed <|
        (keyword?_neg (h.not_word (by simp [termWords]))).passed <|
          (keyword?_neg (h.not_word (by simp [termWords]))).passed <|
            (keywords?_neg (h.not_words (by simp [termWords]))).passed <|
              (keyword?_neg (h.not_word (by simp [termWords]))).passed <| test?_none h

theorem moreConjunction_none (h : EndsTerm rest) {a : NamedTerm} :
    Reads (moreConjunction side a) rest rest True (· = none) :=
  (keyword?_neg (h.not_word (by simp [termWords]))).passed <| .pure rfl

theorem moreDisjunction_none (h : EndsTerm rest) {a : NamedTerm} :
    Reads (moreDisjunction side a) rest rest True (· = none) :=
  (keyword?_neg (h.not_word (by simp [termWords]))).passed <| .pure rfl

/-- A level of the grammar that adds nothing. -/
theorem chain_none {more : NamedTerm → SqlReader (Option NamedTerm)} (hside : Reads side ks rest C P)
    (hmore : ∀ a, Reads (more a) rest rest True (· = none)) :
    Reads (side >>= extend more (fuel + 1)) ks rest C P :=
  (hside.bind fun a ha => extend_none (hmore a) ha).congr (by simp)

/-- **A term is an operand** where it starts with no `NOT` and nothing that
it can go on with comes after it. -/
theorem term_operand (hnot : ∀ k ∈ ks.head?, k.isWord "not" = false) (hend : EndsTerm rest)
    (h : ∀ inner, Reads (operand inner) ks rest C P) : Reads term ks rest C P := by
  refine bind_get fun s hs => ?_
  unfold termOf
  refine chain_none (chain_none ?_ fun a => moreConjunction_none hend) fun a => moreDisjunction_none hend
  refine (keyword?_neg hnot).passed (chain_none ?_ fun a => moreEquality_none hend)
  exact chain_none (h _) fun a => moreRelation_none hend

/-- A call is read by its own reader. -/
theorem operand_call {w : String} {inner : SqlReader NamedTerm} (hnull : Keyword.same w "null" = false)
    (htrue : Keyword.same w "true" = false) (hfalse : Keyword.same w "false" = false)
    (hw : Keyword.isReserved w = false) (h : Reads (call inner w) ks rest C P) :
    Reads (operand inner) (.word w :: .symbol "(" :: ks) rest C P := by
  have hcall : Reads (symbol? "(" >>= fun b => if b = true then call inner w
      else if Keyword.startsTerm w = true then Alternative.failure else columnAfter w)
      (.symbol "(" :: ks) rest C P := symbol?_pos.taken h
  rintro ⟨ts, n⟩ hs
  obtain ⟨⟨_, spelling, gap⟩, ts, rfl, rfl, hrest⟩ := List.map_eq_cons_iff.1 hs
  have hrun : operand inner ⟨⟨.word w, spelling, gap⟩ :: ts, n⟩ =
      (if Keyword.same w "null" then Pure.pure (.literal .null)
        else if Keyword.same w "true" then Pure.pure (.literal (.ofBool true))
        else if Keyword.same w "false" then Pure.pure (.literal (.ofBool false))
        else if Keyword.isReserved w then Alternative.failure
        else symbol? "(" >>= fun b => if b = true then call inner w
          else if Keyword.startsTerm w then Alternative.failure else columnAfter w :
          SqlReader NamedTerm) ⟨ts, n⟩ := rfl
  rw [hrun, hnull, htrue, hfalse, hw]
  exact hcall ⟨ts, n⟩ hrest

theorem operand_count {inner : SqlReader NamedTerm} :
    Reads (operand inner) (.word "COUNT" :: .symbol "(" :: .symbol "*" :: .symbol ")" :: ks) ks True
      (· = .rowCount) := by
  refine operand_call (by decide +kernel) (by decide +kernel) (by decide +kernel) (by decide +kernel) ?_
  have hfold : Keyword.fold "COUNT" = "count" := by decide +kernel
  have hread : Reads (symbol "*" >>= fun _ => symbol ")" >>= fun _ => Pure.pure Term.rowCount)
      (.symbol "*" :: .symbol ")" :: ks) ks True (· = (.rowCount : NamedTerm)) :=
    (symbol_pos.bind fun _ _ => symbol_pos.bind fun _ _ =>
      .pure (P := (· = (.rowCount : NamedTerm))) rfl).congr (by simp)
  unfold call
  rw [hfold]
  exact hread

/-! ## The query that counts -/

section Parts

variable {α : Type} {item : SqlReader α} {Q : α → Prop} {words : List String}

theorem after?_neg (h : TokenKind.startWith words ks = false) :
    Reads (after? words item) ks ks True (· = none) :=
  (keywords?_neg h).passed (.pure rfl)

theorem after?_pos (h : TokenKind.startWith words ks = true)
    (hitem : Reads item (ks.drop words.length) rest C Q) :
    Reads (after? words item) ks rest C fun o => ∃ a, o = some a ∧ Q a :=
  (keywords?_pos h).taken ((hitem.bind fun a ha => .pure ⟨a, rfl, ha⟩).congr (by simp))

/-- A list of one item. -/
theorem commaList_one (h : Reads item ks rest C Q) (hcomma : .symbol "," ∉ rest.head?) :
    Reads (commaList item) ks rest C fun items => ∃ a, items = [a] ∧ Q a := by
  refine bind_get fun s hs => ?_
  have hafter : Reads (afterComma item (s.tokens.length + 1)) rest rest True (· = []) :=
    (symbol?_neg hcomma).passed (.pure rfl)
  refine (h.bind fun a ha => hafter.bind fun others hothers =>
    .pure (P := fun items => ∃ a, items = [a] ∧ Q a) ⟨a, ?_, ha⟩).congr (by simp)
  rw [hothers]

end Parts

theorem resultColumn_count (hend : EndsTerm ks) (has : TokenKind.startWith ["as"] ks = false) :
    Reads resultColumn (.word "COUNT" :: .symbol "(" :: .symbol "*" :: .symbol ")" :: ks) ks True
      fun c => ∃ spelling, c = .term .rowCount none spelling := by
  refine (symbol?_neg (by simp)).passed (bind_get fun s hs => ?_)
  have hall : startsWithAllOf s.tokens = none := by
    obtain ⟨t, ts, hts, -, hrest⟩ := List.map_eq_cons_iff.1 hs
    obtain ⟨point, ts, rfl, hpoint, hrest⟩ := List.map_eq_cons_iff.1 hrest
    obtain ⟨star, ts, rfl, -, -⟩ := List.map_eq_cons_iff.1 hrest
    simp [hts, startsWithAllOf, hpoint]
  simp only [hall]
  have hnot : Keyword.same "COUNT" "not" = false := by decide +kernel
  have hterm : Reads term (.word "COUNT" :: .symbol "(" :: .symbol "*" :: .symbol ")" :: ks) ks True
      (· = .rowCount) :=
    term_operand (by simpa [TokenKind.isWord] using hnot) hend fun _ => operand_count
  refine (hterm.bind fun a ha => textSince.bind fun spelling _ => (after?_neg has).bind fun label hlabel =>
    .pure ⟨spelling, ?_⟩).congr (by simp)
  rw [ha, hlabel]

/-- Behind the last table nothing is joined. -/
theorem joins_nil {fuel : Nat} : Reads (joins (fuel + 1)) [] [] True (· = []) := by
  have hkind : Reads joinKind? [] [] True (· = none) :=
    (keywords?_neg rfl).passed <| (keywords?_neg rfl).passed <| (keywords?_neg rfl).passed <|
      (keywords?_neg rfl).passed <| (keywords?_neg rfl).passed <| (keyword?_neg (by simp)).passed (.pure rfl)
  refine (hkind.bind (D := True) ?_).congr (by simp)
  rintro _ rfl
  exact .pure rfl

theorem select_count {table : String} :
    Reads select [.word "COUNT", .symbol "(", .symbol "*", .symbol ")", .word "FROM", .word table] []
      (Keyword.isReserved table = false) fun q => ∃ spelling, q = SelectQuery.counting table spelling := by
  have hend : EndsTerm [.word "FROM", .word table] := ⟨"FROM", _, rfl, by decide +kernel⟩
  have has : Keyword.same "FROM" "as" = false := by decide +kernel
  have hfrom : Keyword.same "FROM" "from" = true := by decide +kernel
  have hcolumns := commaList_one
    (resultColumn_count hend (startWith_of_head (by simpa [TokenKind.isWord] using has))) (by simp)
  have hsource : Reads (after? ["from"] name) [.word "FROM", .word table] []
      (Keyword.isReserved table = false) fun o => ∃ n, o = some n ∧ n = table :=
    after?_pos (by simpa [TokenKind.startWith, TokenKind.isWord] using hfrom) name_word
  unfold select
  refine (hcolumns.bind fun columns hcolumns =>
    hsource.bind (D := True) (Q := fun q => ∃ spelling, q = SelectQuery.counting table spelling)
      fun source hsource => ?_).congr (by simp)
  obtain ⟨column, rfl, spelling, rfl⟩ := hcolumns
  obtain ⟨table, rfl, rfl⟩ := hsource
  refine bind_get fun s _ => (joins_nil.bind fun joined hjoined => (after?_neg rfl).bind fun condition hcondition =>
    (after?_neg rfl).bind fun groupBy hgroupBy => (after?_neg rfl).bind fun having hhaving =>
      (after?_neg rfl).bind fun orderBy horderBy => (after?_neg rfl).bind fun limit hlimit =>
        .pure (P := fun q => ∃ spelling, q = SelectQuery.counting table spelling) ⟨spelling, ?_⟩).congr (by simp)
  rw [hjoined, hcondition, hgroupBy, hhaving, horderBy, hlimit]
  rfl

end Reads

end SqlReader

namespace Statement

open Token (Spells)

/-- The tokens of the statement that counts the rows of a table. -/
def countKinds (table : String) : List TokenKind :=
  [.word "SELECT", .word "COUNT", .symbol "(", .symbol "*", .symbol ")", .word "FROM", .word table]

variable {table : String}

theorem spells_count (h : Identifier.isValid table = true) :
    Spells (count table .empty).text.toList (some (countKinds table)) := by
  have hfrom : ∀ n ∈ ["FROM", table], Identifier.isValid n = true := by
    intro n hn
    rcases List.mem_cons.1 hn with rfl | hn
    · rfl
    · rw [List.mem_singleton.1 hn]
      exact h
  have htext : (count table .empty).text.toList = "SELECT".toList ++ ' ' :: ("COUNT".toList ++
      '(' :: '*' :: ')' :: (["FROM", table].flatMap (fun n => ' ' :: n.toList) ++ [])) := by
    have hjoin (a : String) (v : List Char) (ha : a.toList = v ++ [' ']) :
        (a ++ table ++ "").toList = v ++ ' ' :: table.toList := by
      simp only [String.toList_append, ha, String.toList_empty, List.append_nil, List.append_assoc,
        List.cons_append, List.nil_append]
    have hwords : ["FROM", table].flatMap (fun n => ' ' :: n.toList) =
        ' ' :: ("FROM".toList ++ ' ' :: table.toList) := by
      simp only [List.flatMap_cons, List.flatMap_nil, List.append_nil, List.cons_append]
    have hstart : "SELECT COUNT(*) FROM ".toList =
        ("SELECT".toList ++ ' ' :: ("COUNT".toList ++ '(' :: '*' :: ')' :: ' ' :: "FROM".toList)) ++ [' '] := by
      decide +kernel
    rw [hwords]
    refine (hjoin _ _ hstart).trans ?_
    simp only [List.append_assoc, List.cons_append, List.append_nil]
  have hlist := Spells.opens (Spells.star (Spells.closes (Spells.words hfrom Token.breaks_nil Spells.nil)))
  have hcount := Spells.word (n := "COUNT") rfl Token.breaks_open hlist
  have hall := Spells.word (n := "SELECT") rfl Token.breaks_blank
    (Spells.blank (Token.starts_word (n := "COUNT") rfl) hcount)
  rw [htext]
  exact hall

/-- **The statement that counts is read as the query that counts.** -/
theorem ofText?_count (h : Identifier.isValid table = true) (hfree : Keyword.isReserved table = false) :
    ∃ spelling, Instruction.ofText? (count table .empty).text =
      some (.select (SelectQuery.counting table spelling), 0) := by
  have hread : SqlReader.Reads SqlReader.instruction (countKinds table) []
      (Keyword.isReserved table = false) fun i => ∃ spelling, i = .select (SelectQuery.counting table spelling) := by
    refine (SqlReader.Reads.keyword?_pos rfl).taken ?_
    refine (SqlReader.Reads.select_count.bind (D := True) fun q hq => .pure ?_).congr (by simp)
    obtain ⟨spelling, rfl⟩ := hq
    exact ⟨spelling, rfl⟩
  obtain ⟨i, hi, spelling, rfl⟩ := Instruction.ofText?_of_reads (spells_count h) hread hfree
  exact ⟨spelling, hi⟩

end Statement

namespace Condition

/-- Where there is no condition, none comes in. -/
theorem settle_nil (tables : List PlacedTable) : (settle tables []).2 = [] := by
  have hfound : ((List.range tables.length).foldl (fun found k => requireTable found.1 found.2 k)
      (tables, ([] : List Condition))).2 = [] := by
    refine List.foldlRecOn (motive := fun found : List PlacedTable × List Condition => found.2 = []) _ _ rfl
      fun found hfound k _ => ?_
    rw [requireTable, hfound]
    split <;> rfl
  unfold settle
  dsimp only
  rw [hfound]
  rfl

end Condition

namespace Query

variable {d : Database} {t : Table} {table : String}

/-- **A query without conditions and keys finds all rows.** -/
theorem findsAll_plan {joined : Joined} {having : PlacedTerm} {shown : List PlacedTerm} {w : Wanted}
    {orderBy : List WantedKey} (hconditions : joined.conditions = []) (hkeys : w.keys = [])
    (hgrouping : w.isGrouping = false) : (plan joined none having shown w orderBy).FindsAll := by
  refine Question.plan_of_free ?_ hkeys
  simp only [hconditions, hgrouping, Option.toList_none, List.map_nil, List.append_nil, Bool.false_eq_true, if_false]
  exact Condition.settle_nil joined.tables

/-- Rows that are all accepted are all kept. -/
theorem filterM_eq_ok {α ε : Type} {p : α → Except ε Bool} {xs : List α} (h : ∀ x ∈ xs, p x = .ok true) :
    xs.filterM p = .ok xs := by
  have hkept : ∀ kept, xs.filterAuxM p kept = .ok (xs.reverse ++ kept) := by
    induction xs with
    | nil => exact fun kept => rfl
    | cons x xs ih =>
      intro kept
      rw [List.filterAuxM, h x List.mem_cons_self, List.reverse_cons, List.append_assoc]
      exact ih (fun y hy => h y (List.mem_cons_of_mem x hy)) (x :: kept)
  rw [List.filterM, hkept, List.append_nil]
  exact congrArg Except.ok xs.reverse_reverse

/-- **As many rows are counted as the table has.** -/
theorem run_counting (ht : d.readable table = .ok t) (spelling : String) :
    ∃ labels, run d (SelectQuery.counting table spelling) [] =
      .ok ⟨labels, [[.integer (Int64.ofNat t.rows.length)]]⟩ := by
  have hsource : source d [] (SelectQuery.counting table spelling) = .ok (ofTable d t) := by
    simp only [source, SelectQuery.counting, ht, List.foldlM_nil]
    rfl
  have hlength : (ofTable d t).rows.length = t.rows.length := List.length_map _
  have hkept : (ofTable d t).rows.filterM (fun cells => (Term.and Term.always Term.always).accepts [] 1 cells) =
      .ok (ofTable d t).rows := filterM_eq_ok fun _ _ => rfl
  have hplan : (plan (ofTable d t) none Term.always [.rowCount] { width := 1 } []).FindsAll :=
    findsAll_plan rfl rfl rfl
  obtain ⟨arranged, harranged, hcount⟩ := hplan.exists_arrange [] (ofTable d t).rows
  -- an aggregate without keys puts all rows into one group, also where there are none
  obtain ⟨g, hg⟩ : ∃ g : Group, g = ⟨arranged.length, arranged.head?.getD []⟩ := ⟨_, rfl⟩
  have halways (f : ColumnName → Except EngineFault PlacedTerm) : Term.always.resolve f = .ok .always := rfl
  have hconditions : (Option.toList (none : Option PlacedTerm) ++ (Condition.ofGroups
      ((groupKeys [] []).map (·.term)) Term.always).map (·.term)).foldr Term.and Term.always =
        .and .always .always := rfl
  have hwanted (q : SelectQuery) : wanted q 1 (groupKeys [] []) [] true = { width := 1 } := rfl
  have hgroups (isOrdered : Bool) : groups [] (groupKeys [] []) isOrdered true arranged = .ok [g] := by rw [hg]; rfl
  have haccepts : [g].filterM (fun g => Term.always.accepts [] g.size g.cells) = .ok [g] :=
    filterM_eq_ok fun _ _ => rfl
  have hsorted : sortByKeys [] [(([] : List Value), g)] = [([], g)] := List.mergeSort_singleton _
  refine ⟨[spelling], ?_⟩
  unfold run
  rw [hsource]
  simp only [SelectQuery.counting, pure, Except.pure, bind, Except.bind, List.mapM_cons, List.mapM_nil,
    showColumn, Scope.resolve, Term.resolve, answerNames, labelOf, Option.mapM_none,
    Surroundings.resolve, Option.getD_none, List.isEmpty_nil, List.flatten_cons, List.flatten_nil,
    List.append_nil, List.any_cons, List.any_nil, Term.isAggregate, Bool.or_false, Bool.not_true,
    Bool.and_false, Bool.false_and, Bool.false_eq_true, if_false, Option.isSome_none]
  simp only [halways, hconditions, hwanted, List.map_cons, List.map_nil, List.length_singleton, hkept, harranged, hgroups,
    haccepts, List.mapM_cons, List.mapM_nil, pure, Except.pure, bind, Except.bind, hsorted, cut, Term.eval]
  rw [hg, hcount, hlength]

end Query

namespace Engine

variable {c : Connection Database} {t : Table} {table : String}

/-- **The query that counts a table** answers what the number of its rows is as a
cell, and changes nothing. -/
theorem query_count (hvalid : Identifier.isValid table = true) (hfree : Keyword.isReserved table = false)
    (ht : c.database.readable table = .ok t) : ∃ labels,
      embedded.query (Statement.count table .empty) c =
        (.ok ⟨labels, [[.integer (Int64.ofNat t.rows.length)]]⟩, c) := by
  obtain ⟨spelling, hread⟩ := Statement.ofText?_count hvalid hfree
  obtain ⟨labels, hanswer⟩ := Query.run_counting ht spelling
  have hargs : (Statement.count table .empty).args = [] := rfl
  have hquery : run [] (.select (SelectQuery.counting table spelling)) c =
      (.ok { cursor := ⟨labels, [[.integer (Int64.ofNat t.rows.length)]]⟩ }, c) := by
    simp only [run, step, hanswer, bind, Except.bind]
    rfl
  have hsql : runSql (Statement.count table .empty) c =
      (.ok { cursor := ⟨labels, [[.integer (Int64.ofNat t.rows.length)]]⟩ }, c) := by
    rw [runSql, hread, hargs]
    exact hquery
  exact ⟨labels, Connection.bind_eq_ok.2 ⟨_, c, hsql, rfl⟩⟩

end Engine

end TypedTables

import TypedTables.Proofs.Database.Instruction
import TypedTables.Proofs.Schema.Table
/-!
# TypedTables — statements of a schema read back

The two statements that a schema consists of. The engine reads the statement
for a table as an instruction with the table's own clauses, just if the table is
bare and its definition does not end early; it reads the statement for an
index just if its names can stand where they do. The statements for a model are
written just so.
-/

namespace TypedTables

open Token (Breaks Spells joined)
open SqlReader (Reads Gives IsTermName)

variable {ks rest : List TokenKind} {C : Prop} {P : Instruction → Prop} {text : String} {guard : Bool}

/-! ## The guard of a statement -/

/-- The words of the guard. -/
def guardWords (guard : Bool) : List String := if guard then ["IF", "NOT", "EXISTS"] else []

theorem guardWords_areValid (guard : Bool) (w : String) (hw : Identifier.isValid w = true) :
    ∀ n ∈ w :: guardWords guard, Identifier.isValid n = true := by
  intro n hn
  rcases List.mem_cons.1 hn with rfl | hn
  · exact hw
  · unfold guardWords at hn
    split at hn
    · have hall : ["IF", "NOT", "EXISTS"].all Identifier.isValid = true := rfl
      exact List.all_eq_true.1 hall n hn
    · nomatch hn

theorem reads_guard (h : TokenKind.startWith ["if", "not", "exists"] ks = false) :
    Reads (SqlReader.keywords? ["if", "not", "exists"]) ((guardWords guard).map .word ++ ks) ks True
      (· = guard) := by
  unfold guardWords
  rcases guard with _ | _
  · exact Reads.keywords?_neg h
  · exact Reads.keywords?_pos rfl

/-- What stands before the name of a table or an index, as a list of words. -/
theorem guard_toList (guard : Bool) (create : String) (w : String)
    (h : create.toList = "CREATE".toList ++ ' ' :: (w.toList ++ [' '])) :
    (create ++ writtenGuard guard).toList =
      "CREATE".toList ++ (w :: guardWords guard).flatMap (fun n => ' ' :: n.toList) ++ [' '] := by
  have hguard : "IF NOT EXISTS ".toList =
      ["IF", "NOT", "EXISTS"].flatMap (fun n => n.toList ++ [' ']) := by decide +kernel
  unfold writtenGuard guardWords
  rw [String.toList_append, h]
  rcases guard with _ | _
  · simp
  · rw [if_pos rfl, if_pos rfl, hguard]
    simp

/-- A definition starts with the keyword, whatever comes after it. -/
theorem reads_create (h : Reads SqlReader.create ks rest C P) :
    Reads SqlReader.instruction (.word "CREATE" :: ks) rest C P := by
  have hhead : ∀ w, (TokenKind.word "CREATE").isWord w = false →
      ∀ k ∈ (TokenKind.word "CREATE" :: ks).head?, k.isWord w = false := by
    intro w hw k hk
    obtain rfl := Option.some.inj hk
    exact hw
  exact (Reads.keyword?_neg (hhead "select" rfl)).passed <|
    (Reads.keyword?_neg (hhead "insert" rfl)).passed <| (Reads.keyword?_neg (hhead "update" rfl)).passed <|
      (Reads.keyword?_neg (hhead "delete" rfl)).passed <| (Reads.keyword?_pos rfl).taken h

theorem gives_create (h : Gives SqlReader.create ks P) :
    Gives SqlReader.instruction (.word "CREATE" :: ks) P := by
  have hhead : ∀ w, (TokenKind.word "CREATE").isWord w = false →
      ∀ k ∈ (TokenKind.word "CREATE" :: ks).head?, k.isWord w = false := by
    intro w hw k hk
    obtain rfl := Option.some.inj hk
    exact hw
  exact (Reads.keyword?_neg (hhead "select" rfl)).gives_passed <|
    (Reads.keyword?_neg (hhead "insert" rfl)).gives_passed <|
      (Reads.keyword?_neg (hhead "update" rfl)).gives_passed <|
        (Reads.keyword?_neg (hhead "delete" rfl)).gives_passed <| (Reads.keyword?_pos rfl).gives_taken h

/-! ## No token ends a statement -/

theorem end_notMem_separated {xs : List (List TokenKind)} (h : ∀ ks ∈ xs, .symbol ";" ∉ ks) :
    .symbol ";" ∉ Token.separated xs := by
  induction xs with
  | nil => exact List.not_mem_nil
  | cons x xs ih =>
    have hx := h x List.mem_cons_self
    have hxs := ih fun ks hks => h ks (List.mem_cons_of_mem x hks)
    rcases xs with _ | ⟨y, ys⟩
    · exact hx
    · simp only [Token.separated, List.mem_append, List.mem_cons, not_or]
      exact ⟨hx, by decide, hxs⟩

theorem end_notMem_words (ns : List String) : .symbol ";" ∉ ns.map TokenKind.word := by
  intro h
  obtain ⟨n, -, hn⟩ := List.mem_map.1 h
  nomatch hn

theorem end_notMem_default (d : WrittenDefault) : .symbol ";" ∉ d.kinds := by
  cases d with
  | text s => simp [WrittenDefault.kinds]
  | number spelling =>
    show .symbol ";" ∉ Token.numberKinds spelling.toList
    unfold Token.numberKinds
    split <;> simp

theorem end_notMem_clause (p : WrittenClause) : .symbol ";" ∉ p.kinds := by
  cases p with
  | column c =>
    simp only [WrittenClause.kinds, WrittenColumn.kinds, List.mem_cons, List.mem_flatMap, not_or, not_exists, not_and]
    refine ⟨by simp, by simp, fun x _ hx => ?_⟩
    rcases List.mem_append.1 hx with hx | hx
    · exact end_notMem_words _ hx
    · rcases hlit : x.literal? with _ | d <;> rw [hlit] at hx
      · cases hx
      · exact end_notMem_default d hx
  | foreignKey fk => simp [WrittenClause.kinds]
  | unique columns =>
    have hnames : .symbol ";" ∉ SqlReader.nameKinds columns := by
      refine end_notMem_separated fun ks hks => ?_
      obtain ⟨n, -, rfl⟩ := List.mem_map.1 hks
      simp
    simp [WrittenClause.kinds, hnames]

/-! ## Tables -/

namespace WrittenTable

variable {t : WrittenTable}

/-- The tokens of the statement that creates the table. -/
def kinds (t : WrittenTable) : List TokenKind :=
  .word "CREATE" :: (("TABLE" :: guardWords t.ifNotExists).map .word ++ .word t.name :: .symbol "(" ::
    (Token.separated (t.clauses.map WrittenClause.kinds) ++ [.symbol ")"]))

theorem sql_toList (t : WrittenTable) : t.sql.toList =
    "CREATE".toList ++ (("TABLE" :: guardWords t.ifNotExists).flatMap (fun n => ' ' :: n.toList) ++ ' ' ::
      (t.name.toList ++ ' ' :: '(' ::
        ((String.intercalate ", " (t.clauses.map WrittenClause.sql)).toList ++ [')']))) := by
  have hjoin (a b c d : String) (v w : List Char) (ha : a.toList = v ++ w ++ [' '])
      (hb : b.toList = [' ', '(']) (hd : d.toList = [')']) :
      (a ++ t.name ++ b ++ c ++ d).toList =
        v ++ (w ++ ' ' :: (t.name.toList ++ ' ' :: '(' :: (c.toList ++ [')']))) := by
    simp only [String.toList_append, ha, hb, hd, List.append_assoc, List.cons_append, List.nil_append]
  exact hjoin _ _ _ _ _ _ (guard_toList t.ifNotExists "CREATE TABLE " "TABLE" (by decide +kernel))
    (by decide +kernel) (by decide +kernel)

/-- **The statement for a table is written as its tokens**, unless a default
ends it. -/
theorem spells (ht : t.IsSpelled) : Spells t.sql.toList (if t.endsText then none else some t.kinds) := by
  have hclauses := WrittenClause.spells_all ht.clauses_areSpelled Token.breaks_close (Spells.closes Spells.nil)
  have hname := Spells.word ht.name_isValid Token.breaks_blank
    (Spells.blank Token.starts_open (Spells.opens hclauses))
  have hwords := Spells.words (guardWords_areValid t.ifNotExists "TABLE" rfl) Token.breaks_blank
    (Spells.blank (Token.starts_word ht.name_isValid) hname)
  have hall := Spells.word (n := "CREATE") rfl ?_ hwords
  · rw [sql_toList]
    rw [Token.map_joined, Token.map_joined, Token.map_joined, Token.joined_joined] at hall
    have hkinds : joined (false || t.clauses.any WrittenClause.endsText)
        (.word "CREATE" :: ("TABLE" :: guardWords t.ifNotExists).map .word ++ .word t.name :: .symbol "(" ::
          Token.separated (t.clauses.map WrittenClause.kinds)) (some [.symbol ")"]) =
        if t.endsText then none else some t.kinds := by
      rw [endsText, Bool.false_or]
      rcases t.clauses.any WrittenClause.endsText with _ | _
      · simp [joined, kinds]
      · rfl
    exact hkinds ▸ hall
  · exact Token.breaks_blank

/-- No table is called like the start of a guard: a parenthesis comes after its name. -/
theorem startWith_guard (t : WrittenTable) : TokenKind.startWith ["if", "not", "exists"]
    (.word t.name :: .symbol "(" :: ks) = false := by
  simp [TokenKind.startWith, TokenKind.isWord]

/-- **The statement for a table is read as the table's clauses**, just if the
table is bare. -/
theorem reads (ht : t.IsSpelled) (hnames : ∀ p ∈ t.clauses, p.IsUnmistaken) :
    Reads SqlReader.instruction t.kinds [] t.IsBare fun i =>
      ∃ d text, i = .createTable t.name t.ifNotExists d text ∧ WrittenClause.Describes t.clauses d := by
  refine reads_create ((Reads.keyword?_pos rfl).taken ?_)
  refine ((reads_guard t.startWith_guard).bind fun guard hguard => Reads.bind_get fun s hs =>
    Reads.newName_word.bind fun name hname => (reads_definition ht hnames).bind fun d hd =>
      Reads.textSince.bind fun text _ => .pure ⟨d, text, ?_, hd⟩).congr ?_
  · simp only [true_and, and_true]
    exact ⟨fun h => ⟨h.name_isFree, h.clauses_areBare⟩, fun h => ⟨h.1, h.2⟩⟩
  · rw [hguard, hname]

/-- Whatever is read from it creates a table of its name, which is not reserved. -/
theorem gives (t : WrittenTable) : Gives SqlReader.instruction t.kinds fun i =>
    (Keyword.isReserved t.name = false ∧ Keyword.same t.name "if" = false) ∧
      ∃ d text, i = .createTable t.name t.ifNotExists d text := by
  refine gives_create ((Reads.keyword?_pos rfl).gives_taken ?_)
  refine (reads_guard t.startWith_guard).gives fun guard hguard _ => SqlReader.gives_get fun s hs =>
    Reads.newName_word.gives fun name hname hfree => SqlReader.gives_bind fun d _ =>
      SqlReader.gives_bind fun text _ => SqlReader.gives_pure ⟨hfree, d, text, ?_⟩
  rw [hguard, hname]

/-- No token of a table ends the statement. -/
theorem end_notMem_kinds (t : WrittenTable) : .symbol ";" ∉ t.kinds := by
  have hclauses : .symbol ";" ∉ Token.separated (t.clauses.map WrittenClause.kinds) := by
    refine end_notMem_separated fun ks hks => ?_
    obtain ⟨p, -, rfl⟩ := List.mem_map.1 hks
    exact end_notMem_clause p
  have hwords := end_notMem_words ("TABLE" :: guardWords t.ifNotExists)
  simp only [kinds, List.mem_cons, List.mem_append, not_or]
  exact ⟨nofun, hwords, nofun, by decide, hclauses, by decide, List.not_mem_nil⟩

/-- **The script for a table** defines what was written, just if the table is
bare and its definition does not end early. -/
theorem listOfText?_sql (ht : t.IsSpelled) (hnames : ∀ p ∈ t.clauses, p.IsUnmistaken) :
    (t.IsBare ∧ t.endsText = false → ∃ d text,
      Instruction.listOfText? t.sql = some [.createTable t.name t.ifNotExists d text] ∧
        WrittenClause.Describes t.clauses d) ∧
      (¬(t.IsBare ∧ t.endsText = false) → Instruction.listOfText? t.sql = none) := by
  have hspells := spells ht
  rcases hends : t.endsText with _ | _
  · rw [hends, if_neg (by decide)] at hspells
    obtain ⟨hok, hfail⟩ := Instruction.listOfText?_of_reads hspells (List.cons_ne_nil _ _)
      t.end_notMem_kinds (reads ht hnames)
    refine ⟨fun h => ?_, fun h => hfail fun hbare => h ⟨hbare, rfl⟩⟩
    obtain ⟨i, hi, d, text, rfl, hd⟩ := hok h.1
    exact ⟨d, text, hi, hd⟩
  · rw [hends, if_pos rfl] at hspells
    exact ⟨fun h => (nomatch h.2), fun _ => Instruction.listOfText?_of_unreadable hspells⟩

/-- **What a script for a table can be**, whatever its columns are called. -/
theorem of_listOfText?_sql (ht : t.IsSpelled) {instructions : List Instruction}
    (h : Instruction.listOfText? t.sql = some instructions) :
    (Keyword.isReserved t.name = false ∧ Keyword.same t.name "if" = false) ∧
      ∃ d text, instructions = [.createTable t.name t.ifNotExists d text] := by
  have hspells := spells ht
  rcases hends : t.endsText with _ | _
  · rw [hends, if_neg (by decide)] at hspells
    obtain ⟨i, rfl, hfree, d, text, rfl⟩ := Instruction.of_listOfText? hspells (List.cons_ne_nil _ _)
      t.end_notMem_kinds t.gives h
    exact ⟨hfree, d, text, rfl⟩
  · rw [hends, if_pos rfl] at hspells
    rw [Instruction.listOfText?_of_unreadable hspells] at h
    cases h

end WrittenTable

/-! ## Indexes -/

namespace WrittenIndex

variable {i : WrittenIndex}

/-- **Whether an index can be read**: its names can stand where they do. -/
structure IsBare (i : WrittenIndex) : Prop where
  name_isFree : Keyword.isReserved i.name = false ∧ Keyword.same i.name "if" = false
  table_isFree : Keyword.isReserved i.table = false
  column_isFree : IsTermName i.column

/-- The tokens of the statement that creates the index. -/
def kinds (i : WrittenIndex) : List TokenKind :=
  .word "CREATE" :: (("INDEX" :: guardWords i.ifNotExists).map .word ++ .word i.name ::
    .word "ON" :: .word i.table :: .symbol "(" :: .word i.column :: [.symbol ")"])

theorem sql_toList (i : WrittenIndex) : i.sql.toList =
    "CREATE".toList ++ (("INDEX" :: guardWords i.ifNotExists).flatMap (fun n => ' ' :: n.toList) ++ ' ' ::
      (i.name.toList ++ (["ON", i.table].flatMap (fun n => ' ' :: n.toList) ++
        '(' :: (i.column.toList ++ [')'])))) := by
  have hjoin (a b c d : String) (v w x : List Char) (ha : a.toList = v ++ w ++ [' '])
      (hb : b.toList = ' ' :: (x ++ [' '])) (hc : c.toList = ['(']) (hd : d.toList = [')']) :
      (a ++ i.name ++ b ++ i.table ++ c ++ i.column ++ d).toList =
        v ++ (w ++ ' ' :: (i.name.toList ++ (' ' :: (x ++ ' ' :: i.table.toList) ++ '(' ::
          (i.column.toList ++ [')'])))) := by
    simp only [String.toList_append, ha, hb, hc, hd, List.append_assoc, List.cons_append, List.nil_append]
  have hwords : ["ON", i.table].flatMap (fun n => ' ' :: n.toList) =
      ' ' :: ("ON".toList ++ ' ' :: i.table.toList) := by
    simp only [List.flatMap_cons, List.flatMap_nil, List.append_nil, List.cons_append]
  rw [hwords]
  exact hjoin _ _ _ _ _ _ _ (guard_toList i.ifNotExists "CREATE INDEX " "INDEX" (by decide +kernel))
    (by decide +kernel) (by decide +kernel) (by decide +kernel)

/-- **The statement for an index is written as its tokens.** -/
theorem spells (hi : i.IsSpelled) : Spells i.sql.toList (some i.kinds) := by
  have hlist := Spells.opens (Spells.word hi.column_isValid Token.breaks_close (Spells.closes Spells.nil))
  have hon : ∀ n ∈ ["ON", i.table], Identifier.isValid n = true := by
    intro n hn
    rcases List.mem_cons.1 hn with rfl | hn
    · rfl
    · rw [List.mem_singleton.1 hn]
      exact hi.table_isValid
  have hname := Spells.word hi.name_isValid Token.breaks_blank (Spells.words hon Token.breaks_open hlist)
  have hwords := Spells.words (guardWords_areValid i.ifNotExists "INDEX" rfl) Token.breaks_blank
    (Spells.blank (Token.starts_word hi.name_isValid) hname)
  have hall := Spells.word (n := "CREATE") rfl Token.breaks_blank hwords
  rw [sql_toList]
  exact hall

/-- **The statement for an index is read as what it says**, just if the index is
bare. -/
theorem reads (i : WrittenIndex) : Reads SqlReader.instruction i.kinds [] i.IsBare fun instruction =>
    ∃ text, instruction = .createIndex i.name i.ifNotExists i.table [i.column] text := by
  have hnames : Reads (SqlReader.parens (SqlReader.commaList SqlReader.termName))
      [.symbol "(", .word i.column, .symbol ")"] []
      ([i.column] ≠ [] ∧ ∀ c ∈ [i.column], IsTermName c) (· = [i.column]) :=
    show Reads _ (_ :: (SqlReader.nameKinds [i.column] ++ _ :: [])) _ _ _ from Reads.parens_names
  refine reads_create ((Reads.keyword?_neg ?_).passed ?_)
  · intro k hk
    obtain rfl := Option.some.inj hk
    rfl
  refine ((Reads.keyword_pos rfl).bind fun _ _ => (reads_guard ?_).bind fun guard hguard =>
    Reads.bind_get fun s hs => Reads.newName_word.bind fun index hindex => (Reads.keyword_pos rfl).bind fun _ _ =>
      Reads.name_word.bind fun table htable => hnames.bind fun columns hcolumns =>
        Reads.textSince.bind fun text _ => .pure ⟨text, ?_⟩).congr ?_
  · have hon : Keyword.same "ON" "not" = false := by decide +kernel
    simp [TokenKind.startWith, TokenKind.isWord, hon]
  · simp only [true_and, and_true]
    refine ⟨fun h => ⟨h.name_isFree, h.table_isFree, List.cons_ne_nil _ _, ?_⟩, fun h => ?_⟩
    · simpa using h.column_isFree
    · exact ⟨h.1, h.2.1, h.2.2.2 _ List.mem_cons_self⟩
  · rw [hguard, hindex, htable, hcolumns]

/-- **The script for an index** defines what was written, just if the index is
bare. -/
theorem listOfText?_sql (hi : i.IsSpelled) :
    (i.IsBare → ∃ text,
      Instruction.listOfText? i.sql = some [.createIndex i.name i.ifNotExists i.table [i.column] text]) ∧
      (¬i.IsBare → Instruction.listOfText? i.sql = none) := by
  have hend : .symbol ";" ∉ i.kinds := by
    have hwords := end_notMem_words ("INDEX" :: guardWords i.ifNotExists)
    simp only [kinds, List.mem_cons, List.mem_append, not_or]
    exact ⟨nofun, hwords, nofun, nofun, nofun, by decide, nofun, by decide, List.not_mem_nil⟩
  obtain ⟨hok, hfail⟩ := Instruction.listOfText?_of_reads (spells hi) (List.cons_ne_nil _ _) hend i.reads
  refine ⟨fun h => ?_, hfail⟩
  obtain ⟨_, hread, text, rfl⟩ := hok h
  exact ⟨text, hread⟩

end WrittenIndex

/-! ## Models -/

namespace Model

variable {m : Model} {o : DdlOptions} {f : Field} {table column : String}

/-- The definition of the index on a field as it is written. -/
def writtenIndex (m : Model) (o : DdlOptions) (f : Field) : WrittenIndex where
  ifNotExists := o.ifNotExists
  name := indexName m.tableName f.columnName
  table := m.tableName
  column := f.columnName

theorem indexName_toList (table column : String) :
    (indexName table column).toList = ['i', 'd', 'x', '_'] ++ table.toList ++ ['_'] ++ column.toList := by
  have hstart : "idx_".toList = ['i', 'd', 'x', '_'] := by decide +kernel
  have hmiddle : "_".toList = ['_'] := by decide +kernel
  rw [indexName, String.toList_append, String.toList_append, String.toList_append, hstart, hmiddle]

/-- The name of an index is an identifier. -/
theorem isValid_indexName (ht : Identifier.isValid table = true)
    (hc : Identifier.isValid column = true) : Identifier.isValid (indexName table column) = true := by
  obtain ⟨c, v, htable, -, hv⟩ := Identifier.exists_cons_of_isValid ht
  obtain ⟨d, w, hcolumn, -, hw⟩ := Identifier.exists_cons_of_isValid hc
  have hstart : Identifier.isStart 'i' = true := rfl
  have hpart : ∀ e ∈ ['d', 'x', '_'] ++ table.toList ++ ['_'] ++ column.toList, Identifier.isPart e = true := by
    intro e he
    rw [htable, hcolumn] at he
    simp only [List.mem_append] at he
    rcases he with ((he | he) | he) | he
    · have hall : ['d', 'x', '_'].all Identifier.isPart = true := rfl
      exact List.all_eq_true.1 hall e he
    · exact hv e he
    · rw [List.mem_singleton.1 he]
      rfl
    · exact hw e he
  unfold Identifier.isValid
  rw [indexName_toList]
  simp only [List.cons_append, List.nil_append, Identifier.isValidChars, hstart, Bool.true_and]
  exact List.all_eq_true.2 hpart

theorem isSpelled_writtenIndex (hm : m.IsSound) (hf : f ∈ m.fields) : (m.writtenIndex o f).IsSpelled where
  name_isValid := isValid_indexName hm.tableName_isValid (hm.fields_areSound f hf).columnName_isValid
  table_isValid := hm.tableName_isValid
  column_isValid := (hm.fields_areSound f hf).columnName_isValid

end Model

end TypedTables

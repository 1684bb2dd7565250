import Mathlib.Data.List.Forall2
import TypedTables.Proofs.Extraction.Model
import TypedTables.Proofs.Schema.Column
/-!
# TypedTables — table definitions read back

The definition of a table is a list of clauses: its columns, its foreign keys
and its unique groups. `WrittenClause.spells` says of which tokens a clause is
written, and `WrittenTable.reads_definition` what the engine reads from all of
them. Between them they say when a table can be read at all: no name in it is
reserved, no unique group is empty, and no default ends the text. The
definition of a model's table is one of these.
-/

namespace TypedTables

open Token (Breaks Spells joined)
open SqlReader (Reads nameKinds IsTermName)
open ColumnConstraint (Closes)

variable {b : List Char} {r : Option (List TokenKind)} {ks : List TokenKind}

namespace WrittenClause

variable {p : WrittenClause} {ps done : List WrittenClause} {d : TableDefinition}

/-- The tokens of a clause. -/
def kinds : WrittenClause → List TokenKind
  | column c => c.kinds
  | foreignKey fk =>
    [.word "FOREIGN", .word "KEY", .symbol "(", .word fk.localColumn, .symbol ")", .word "REFERENCES",
      .word fk.targetTable, .symbol "(", .word fk.targetColumn, .symbol ")"]
  | unique columns => .word "UNIQUE" :: .symbol "(" :: (nameKinds columns ++ [.symbol ")"])

/-- **Whether a clause can be read**: no name in it is reserved, and a unique
group has columns. -/
def IsBare : WrittenClause → Prop
  | column c => Keyword.isReserved c.name = false
  | foreignKey fk => Keyword.isReserved fk.localColumn = false ∧
      Keyword.isReserved fk.targetTable = false ∧ Keyword.isReserved fk.targetColumn = false
  | unique columns => columns ≠ [] ∧ ∀ c ∈ columns, IsTermName c

/-- Whether a clause cannot be mistaken for the name of a constraint. -/
def IsUnmistaken : WrittenClause → Prop
  | column c => Keyword.same c.name "constraint" = false
  | _ => True

/-! ## Writing -/

theorem spells_names {ns : List String} (hns : ∀ n ∈ ns, Identifier.isValid n = true) (hb : Breaks b)
    (h : Spells b r) :
    Spells ((String.intercalate ", " ns).toList ++ b) (joined false (nameKinds ns) r) := by
  have hall := Spells.intercalate id (fun _ => false) (fun n => [TokenKind.word n]) ns
    (fun n hn _ _ hb h => .word (hns n hn) hb h) (fun n hn _ => Token.starts_word (hns n hn)) hb h
  rwa [List.map_id, List.any_eq_false.2 fun _ _ => Bool.false_ne_true] at hall

theorem foreignKey_sql_toList (fk : ForeignKey) : (foreignKey fk).sql.toList =
    "FOREIGN".toList ++ ' ' :: ("KEY".toList ++ ' ' :: '(' :: (fk.localColumn.toList ++ ')' :: ' ' ::
      ("REFERENCES".toList ++ ' ' :: (fk.targetTable.toList ++ '(' :: (fk.targetColumn.toList ++
        [')']))))) := by
  -- the texts between the names are kept apart from how they are spelled
  have hjoin (a b c d : String) (v w x : List Char) (ha : a.toList = v ++ ' ' :: (w ++ [' ', '(']))
      (hb : b.toList = ')' :: ' ' :: (x ++ [' '])) (hc : c.toList = ['(']) (hd : d.toList = [')']) :
      (a ++ fk.localColumn ++ b ++ fk.targetTable ++ c ++ fk.targetColumn ++ d).toList =
        v ++ ' ' :: (w ++ ' ' :: '(' :: (fk.localColumn.toList ++ ')' :: ' ' :: (x ++ ' ' ::
          (fk.targetTable.toList ++ '(' :: (fk.targetColumn.toList ++ [')']))))) := by
    simp only [String.toList_append, ha, hb, hc, hd, List.append_assoc, List.cons_append, List.nil_append]
  rw [sql_foreignKey]
  exact hjoin _ _ _ _ _ _ _ (by decide +kernel) (by decide +kernel) (by decide +kernel)
    (by decide +kernel)

theorem unique_sql_toList (columns : List String) : (unique columns).sql.toList =
    "UNIQUE".toList ++ ' ' :: '(' :: ((String.intercalate ", " columns).toList ++ [')']) := by
  have hunique : "UNIQUE (".toList = "UNIQUE".toList ++ [' ', '('] := by decide +kernel
  have hclose : ")".toList = [')'] := rfl
  rw [sql_unique, String.toList_append, String.toList_append, hunique, hclose]
  simp only [List.append_assoc, List.cons_append, List.nil_append]

/-- Every clause starts with a word. -/
theorem starts_sql (hp : p.IsSpelled) : Token.Starts (Token.cut (p.sql.toList ++ b)) := by
  cases p with
  | column c =>
    rw [sql_column, WrittenColumn.sql_toList, List.append_assoc]
    exact Token.starts_word (WrittenColumn.IsSpelled.name_isValid hp)
  | foreignKey fk =>
    rw [foreignKey_sql_toList, List.append_assoc]
    exact Token.starts_word rfl
  | unique columns =>
    rw [unique_sql_toList, List.append_assoc]
    exact Token.starts_word rfl

/-- **A clause is written as its tokens**, unless its default ends the text. -/
theorem spells (hp : p.IsSpelled) (hb : Breaks b) (h : Spells b r) :
    Spells (p.sql.toList ++ b) (joined p.endsText p.kinds r) := by
  cases p with
  | column c => exact WrittenColumn.spells hp hb h
  | foreignKey fk =>
    obtain ⟨hlocal, htable, hcolumn⟩ := hp
    have htarget := Spells.word htable Token.breaks_open
      (Spells.opens (Spells.word hcolumn Token.breaks_close (Spells.closes h)))
    have hreferences := Spells.word (n := "REFERENCES") rfl Token.breaks_blank
      (Spells.blank (Token.starts_word htable) htarget)
    have hcolumns := Spells.opens (Spells.word hlocal Token.breaks_close
      (Spells.closes (Spells.blank (Token.starts_word rfl) hreferences)))
    have hkey := Spells.word (n := "KEY") rfl Token.breaks_blank (Spells.blank Token.starts_open hcolumns)
    have hall := Spells.word (n := "FOREIGN") rfl Token.breaks_blank
      (Spells.blank (Token.starts_word rfl) hkey)
    simp only [Option.map_map] at hall
    rw [foreignKey_sql_toList]
    simp only [List.append_assoc, List.cons_append, List.nil_append]
    exact hall
  | unique columns =>
    have hnames := Spells.opens (spells_names hp Token.breaks_close (Spells.closes h))
    have hall := Spells.word (n := "UNIQUE") rfl Token.breaks_blank
      (Spells.blank Token.starts_open hnames)
    rw [Token.map_joined, Token.map_joined] at hall
    rw [unique_sql_toList]
    simp only [List.append_assoc, List.cons_append, List.nil_append]
    convert hall using 1
    simp [endsText, joined, kinds, Function.comp_def]

theorem spells_all (hps : ∀ p ∈ ps, p.IsSpelled) (hb : Breaks b) (h : Spells b r) :
    Spells ((String.intercalate ", " (ps.map sql)).toList ++ b)
      (joined (ps.any endsText) (Token.separated (ps.map kinds)) r) :=
  Spells.intercalate sql endsText kinds ps (fun p hp _ _ => spells (hps p hp))
    (fun p hp _ => starts_sql (hps p hp)) hb h

/-! ## Reading -/

/-- Whether a definition has exactly some clauses, but for the values of its
defaults. -/
structure Describes (ps : List WrittenClause) (d : TableDefinition) : Prop where
  columns : List.Forall₂ WrittenColumn.HasColumn (ps.filterMap column?) d.columns
  keys : d.keys = []
  constraintNames : d.constraintNames = []
  foreignKeys : d.foreignKeys = ps.filterMap foreignKey?
  uniqueGroups : d.uniqueGroups = ps.filterMap unique?

/-- A clause of another kind adds nothing. -/
theorem filterMap_snoc {α : Type} {kind : WrittenClause → Option α} (h : kind p = none) :
    (done ++ [p]).filterMap kind = done.filterMap kind := by
  rw [List.filterMap_append, List.filterMap_cons_none h, List.filterMap_nil, List.append_nil]

/-- The clauses grow by a column, a foreign key or a group at a time. -/
theorem Describes.snoc_column {f : WrittenColumn} {c : ColumnDefinition} (hd : Describes done d)
    (hc : f.HasColumn c) : Describes (done ++ [column f]) { d with columns := d.columns ++ [c] } where
  columns := by
    rw [List.filterMap_append]
    exact List.rel_append hd.columns (.cons hc .nil)
  keys := hd.keys
  constraintNames := hd.constraintNames
  foreignKeys := by
    rw [filterMap_snoc rfl]
    exact hd.foreignKeys
  uniqueGroups := by
    rw [filterMap_snoc rfl]
    exact hd.uniqueGroups

theorem Describes.snoc_foreignKey {fk : ForeignKey} (hd : Describes done d) :
    Describes (done ++ [foreignKey fk]) { d with foreignKeys := d.foreignKeys ++ [fk] } where
  columns := by
    rw [filterMap_snoc rfl]
    exact hd.columns
  keys := hd.keys
  constraintNames := hd.constraintNames
  foreignKeys := by
    rw [List.filterMap_append, hd.foreignKeys]
    rfl
  uniqueGroups := by
    rw [filterMap_snoc rfl]
    exact hd.uniqueGroups

theorem Describes.snoc_unique {group : List String} (hd : Describes done d) :
    Describes (done ++ [unique group]) { d with uniqueGroups := d.uniqueGroups ++ [group] } where
  columns := by
    rw [filterMap_snoc rfl]
    exact hd.columns
  keys := hd.keys
  constraintNames := hd.constraintNames
  foreignKeys := by
    rw [filterMap_snoc rfl]
    exact hd.foreignKeys
  uniqueGroups := by
    rw [List.filterMap_append, hd.uniqueGroups]
    rfl

/-- After columns only, nothing has come yet that a column must not follow. -/
theorem Describes.isEarly (hd : Describes done d) (h : ∀ q ∈ done, q.column?.isSome = true) :
    d.isLate = false := by
  have hcolumns : ∀ q ∈ done, q.foreignKey? = none ∧ q.unique? = none := by
    intro q hq
    have hsome := h q hq
    cases q <;> first | exact ⟨rfl, rfl⟩ | nomatch hsome
  have hforeign : d.foreignKeys = [] := by
    rw [hd.foreignKeys, List.filterMap_eq_nil_iff]
    exact fun q hq => (hcolumns q hq).1
  have hunique : d.uniqueGroups = [] := by
    rw [hd.uniqueGroups, List.filterMap_eq_nil_iff]
    exact fun q hq => (hcolumns q hq).2
  rw [TableDefinition.isLate, hd.keys, hforeign, hunique, hd.constraintNames]
  rfl

theorem isReserved_of_same {a w : String} (h : Keyword.same a w = true) (hw : Keyword.isReserved w = true) :
    Keyword.isReserved a = true := by
  have hfold : Keyword.fold a = Keyword.fold w := by simpa [Keyword.same] using h
  unfold Keyword.isReserved at hw ⊢
  rw [hfold]
  exact hw

/-- A column does not start with two keywords: its second word is a type. -/
theorem startWith_column {c : WrittenColumn} (w : String) :
    TokenKind.startWith [w, "key"] (c.kinds ++ ks) = false := by
  have htype : (TokenKind.word c.affinity.sql).isWord "key" = false := by
    cases c.affinity <;> decide +kernel
  simp [TokenKind.startWith, WrittenColumn.kinds, htype]

/-- A clause that starts with another word is no name of a constraint. -/
theorem reads_moreDefinition {done' : List WrittenClause} {C : Prop}
    (hhead : ∀ k ∈ ks.head?, k.isWord "constraint" = false) {rest : List TokenKind}
    (h : Reads (SqlReader.tableConstraint? d) ks rest C fun o => ∃ d', o = some d' ∧ Describes done' d') :
    Reads (SqlReader.moreDefinition d) ks rest C (Describes done') := by
  unfold SqlReader.moreDefinition
  refine (Reads.keyword?_neg hhead).passed ((h.bind (D := True) ?_).congr (by simp))
  rintro _ ⟨d', rfl, hd'⟩
  exact .pure hd'

/-- A column is read where only columns came before. One whose name is the
keyword `UNIQUE` is taken for a group, and no parenthesis follows it. -/
theorem reads_column {c : WrittenColumn} (hc : c.IsSpelled) (hname : (column c).IsUnmistaken)
    (hd : Describes done d) (hks : Closes ks) (hbefore : ∀ q ∈ done, q.column?.isSome = true) :
    Reads (SqlReader.moreDefinition d) (c.kinds ++ ks) ks (IsBare (column c))
      (Describes (done ++ [column c])) := by
  have hhead (w : String) (hw : Keyword.same c.name w = false) :
      ∀ k ∈ (c.kinds ++ ks).head?, k.isWord w = false := by
    intro k hk
    obtain rfl := Option.some.inj hk
    exact hw
  unfold SqlReader.moreDefinition
  refine (Reads.keyword?_neg (hhead _ hname)).passed ?_
  rcases hsame : Keyword.same c.name "unique" with _ | _
  · have hnone : Reads (SqlReader.tableConstraint? d) (c.kinds ++ ks) (c.kinds ++ ks) True (· = none) :=
      (Reads.keywords?_neg (startWith_column "foreign")).passed <|
        (Reads.keyword?_neg (hhead _ hsame)).passed <|
          (Reads.keywords?_neg (startWith_column "primary")).passed <| .pure rfl
    refine (hnone.bind (D := Keyword.isReserved c.name = false) ?_).congr (by simp [IsBare])
    rintro _ rfl
    simp only [hd.isEarly hbefore, Bool.false_eq_true, if_false]
    exact ((WrittenColumn.reads hc hks).bind fun column hcolumn => .pure (hd.snoc_column hcolumn)).congr (by simp)
  · have hreserved : Keyword.isReserved c.name = true := isReserved_of_same hsame (by decide +kernel)
    have hgroup : SqlReader.Fails (SqlReader.parens (SqlReader.commaList SqlReader.termName))
        (.word c.affinity.sql :: c.constraints.flatMap ColumnConstraint.kinds ++ ks) :=
      SqlReader.Fails.bind (Reads.symbol_neg (by simp))
    have hfails : Reads (SqlReader.tableConstraint? d) (c.kinds ++ ks) ks False fun _ => True :=
      (Reads.keywords?_neg (startWith_column "foreign")).passed <|
        (Reads.keyword?_pos (k := .word c.name) hsame).taken (Reads.of_fails hgroup.bind)
    exact (Reads.of_fails (hfails.fails not_false).bind).congr (by simp [IsBare, hreserved])

theorem reads_foreignKey (fk : ForeignKey) (hd : Describes done d) :
    Reads (SqlReader.moreDefinition d) ((foreignKey fk).kinds ++ ks) ks (IsBare (foreignKey fk))
      (Describes (done ++ [foreignKey fk])) := by
  refine reads_moreDefinition ?_ ((Reads.keywords?_pos rfl).taken ?_)
  · intro k hk
    obtain rfl := Option.some.inj hk
    rfl
  · refine (Reads.parens_name.bind fun localColumn hlocal => (Reads.keyword_pos rfl).bind fun _ _ =>
      Reads.name_word.bind fun table htable => Reads.parens_name.bind fun column hcolumn =>
        .pure ⟨_, rfl, ?_⟩).congr (by simp [IsBare])
    rw [hlocal, htable, hcolumn]
    exact hd.snoc_foreignKey

theorem reads_unique (columns : List String) (hd : Describes done d) :
    Reads (SqlReader.moreDefinition d) ((unique columns).kinds ++ ks) ks (IsBare (unique columns))
      (Describes (done ++ [unique columns])) := by
  have hkinds : (unique columns).kinds ++ ks =
      .word "UNIQUE" :: .symbol "(" :: (nameKinds columns ++ .symbol ")" :: ks) := by
    simp [kinds]
  have hhead (w : String) (hw : Keyword.same "UNIQUE" w = false) :
      ∀ k ∈ (TokenKind.word "UNIQUE" :: .symbol "(" :: (nameKinds columns ++ .symbol ")" :: ks)).head?,
        k.isWord w = false := by
    intro k hk
    obtain rfl := Option.some.inj hk
    exact hw
  rw [hkinds]
  refine reads_moreDefinition (hhead _ (by decide +kernel))
    ((Reads.keywords?_neg (Reads.startWith_of_head (hhead _ (by decide +kernel)))).passed
      ((Reads.keyword?_pos rfl).taken ?_))
  refine (Reads.parens_names.bind fun group hgroup => .pure ⟨_, rfl, ?_⟩).congr (by simp [IsBare])
  rw [hgroup]
  exact hd.snoc_unique

/-- **A clause is read as what it is**, and fails only if it is not bare. Columns
have to come before everything else. -/
theorem reads (hp : p.IsSpelled) (hname : p.IsUnmistaken) (hd : Describes done d) (hks : Closes ks)
    (horder : p.column?.isSome = true → ∀ q ∈ done, q.column?.isSome = true) :
    Reads (SqlReader.moreDefinition d) (p.kinds ++ ks) ks p.IsBare (Describes (done ++ [p])) := by
  cases p with
  | column c => exact reads_column hp hname hd hks (horder rfl)
  | foreignKey fk => exact reads_foreignKey fk hd
  | unique columns => exact reads_unique columns hd

/-- **The clauses of a table are read one after the other**, by induction on
what is left of them. -/
theorem reads_all (hne : ps ≠ []) (hps : ∀ p ∈ ps, p.IsSpelled ∧ p.IsUnmistaken)
    (horder : (done ++ ps).Pairwise fun p q => q.column?.isSome = true → p.column?.isSome = true) :
    ∀ {fuel : Nat} {d : TableDefinition}, ps.length ≤ fuel → Describes done d →
      Reads (SqlReader.definitionFrom fuel d)
        (Token.separated (ps.map kinds) ++ .symbol ")" :: ks) ks (∀ p ∈ ps, p.IsBare)
        (Describes (done ++ ps)) := by
  induction ps generalizing done with
  | nil => exact absurd rfl hne
  | cons p ps ih =>
    rintro (_ | fuel) d hf hd
    · rw [List.length_cons] at hf
      omega
    · obtain ⟨hp, hname⟩ := hps p List.mem_cons_self
      have hbefore : p.column?.isSome = true → ∀ q ∈ done, q.column?.isSome = true := fun hcolumn q hq =>
        (List.pairwise_append.1 horder).2.2 q hq p List.mem_cons_self hcolumn
      rcases ps with _ | ⟨q, ps⟩
      · refine ((reads hp hname hd (.inr rfl) hbefore).bind fun d' hd' =>
          (Reads.symbol?_neg (by simp)).passed (Reads.symbol_pos.bind fun _ _ => .pure hd')).congr ?_
        simp
      · have hnext : (done ++ [p] ++ q :: ps).Pairwise
            fun p q => q.column?.isSome = true → p.column?.isSome = true := by
          rwa [List.append_assoc]
        have hfuel : (q :: ps).length ≤ fuel := by
          rw [List.length_cons] at hf
          omega
        have hkinds : Token.separated ((p :: q :: ps).map kinds) ++ .symbol ")" :: ks =
            p.kinds ++ .symbol "," :: (Token.separated ((q :: ps).map kinds) ++ .symbol ")" :: ks) := by
          simp [Token.separated]
        rw [hkinds]
        refine ((reads hp hname hd (.inl rfl) hbefore).bind fun d' hd' => Reads.symbol?_pos.taken
          (ih (List.cons_ne_nil q ps) (fun q hq => hps q (List.mem_cons_of_mem p hq)) hnext hfuel
            hd')).imp ?_ fun d' hd' => ?_
        · simp
        · rwa [List.append_assoc] at hd'

end WrittenClause

namespace WrittenTable

variable {t : WrittenTable}

/-- **Whether a table can be read**: its name is not reserved, nor are those in
its clauses. -/
structure IsBare (t : WrittenTable) : Prop where
  name_isFree : Keyword.isReserved t.name = false ∧ Keyword.same t.name "if" = false
  clauses_areBare : ∀ p ∈ t.clauses, p.IsBare

/-- The first clause of a table is a column. -/
theorem exists_clauses_eq (ht : t.IsSpelled) : ∃ c ps, t.clauses = .column c :: ps := by
  have hne := ht.columns_ne_nil
  have hfirst := ht.columns_first
  unfold columns at hne
  rcases hclauses : t.clauses with _ | ⟨p, ps⟩
  · rw [hclauses] at hne
    exact absurd rfl hne
  · rw [hclauses] at hne hfirst
    rcases hp : p.column? with _ | c
    · rw [List.filterMap_cons_none hp] at hne
      obtain ⟨c, hc⟩ := List.exists_mem_of_ne_nil _ hne
      obtain ⟨q, hq, hcolumn⟩ := List.mem_filterMap.1 hc
      have hsome := (List.pairwise_cons.1 hfirst).1 q hq (Option.isSome_of_mem hcolumn)
      rw [hp] at hsome
      cases hsome
    · cases p <;> first | exact ⟨_, ps, rfl⟩ | nomatch hp

/-- **The definition of a table is read clause by clause.** -/
theorem reads_definition (ht : t.IsSpelled) (hnames : ∀ p ∈ t.clauses, p.IsUnmistaken) :
    Reads SqlReader.tableDefinition
      (.symbol "(" :: (Token.separated (t.clauses.map WrittenClause.kinds) ++ .symbol ")" :: ks)) ks
      (∀ p ∈ t.clauses, p.IsBare) (WrittenClause.Describes t.clauses) := by
  have hspelled := ht.clauses_areSpelled
  have hpairwise := ht.columns_first
  obtain ⟨c, ps, hclauses⟩ := exists_clauses_eq ht
  rw [hclauses] at hspelled hpairwise hnames ⊢
  have hc := hspelled (.column c) List.mem_cons_self
  have hstart : ∀ d value, d = c.definition value →
      WrittenClause.Describes [.column c] { columns := [d] } := fun d value hd =>
    ⟨.cons ⟨value, hd⟩ .nil, rfl, rfl, rfl, rfl⟩
  rcases ps with _ | ⟨p, ps⟩
  · refine (Reads.symbol_pos.bind fun _ _ => (WrittenColumn.reads hc (.inr rfl)).bind
      fun d hd => (Reads.symbol?_neg (by simp)).passed (Reads.symbol_pos.bind fun _ _ => .pure ?_)).congr ?_
    · obtain ⟨value, hd⟩ := hd
      exact hstart d value hd
    · simp [WrittenClause.IsBare]
  · have hkinds : Token.separated ((WrittenClause.column c :: p :: ps).map WrittenClause.kinds) ++ .symbol ")" :: ks =
        c.kinds ++ .symbol "," ::
          (Token.separated ((p :: ps).map WrittenClause.kinds) ++ .symbol ")" :: ks) := by
      simp [Token.separated, WrittenClause.kinds]
    rw [hkinds]
    refine (Reads.symbol_pos.bind fun _ _ => (WrittenColumn.reads hc (.inl rfl)).bind
      fun d hd => Reads.symbol?_pos.taken (Reads.bind_get fun s hs => ?_)).congr
        (C := True ∧ Keyword.isReserved c.name = false ∧ ∀ q ∈ p :: ps, q.IsBare) ?_
    · obtain ⟨value, hd⟩ := hd
      refine WrittenClause.reads_all (List.cons_ne_nil p ps) (fun q hq => ?_) hpairwise ?_ (hstart d value hd)
      · exact ⟨hspelled q (List.mem_cons_of_mem _ hq), hnames q (List.mem_cons_of_mem _ hq)⟩
      · have hlen := congrArg List.length hs
        have hle := Token.length_separated ((p :: ps).map WrittenClause.kinds)
        rw [ReaderState.kinds, List.length_map, List.length_append, List.length_cons] at hlen
        rw [List.length_map] at hle
        omega
    · simp [WrittenClause.IsBare]

end WrittenTable

/-! ## Models -/

namespace Model

variable {m : Model} {o : DdlOptions}

/-- The definition of a model's table as it is written: its columns, then its
foreign keys, then its unique groups. -/
def written (m : Model) (o : DdlOptions) : WrittenTable where
  ifNotExists := o.ifNotExists
  name := m.tableName
  clauses := m.fields.map (fun f => .column f.written) ++ m.foreignKeys.map .foreignKey ++
    m.uniqueGroups.map .unique

/-- What holds of all clauses holds of all columns, keys and groups. -/
theorem forall_clauses {Q : WrittenClause → Prop} : (∀ p ∈ (m.written o).clauses, Q p) ↔
    (∀ f ∈ m.fields, Q (.column f.written)) ∧ (∀ fk ∈ m.foreignKeys, Q (.foreignKey fk)) ∧
      ∀ group ∈ m.uniqueGroups, Q (.unique group) := by
  simp only [written, List.forall_mem_append, List.forall_mem_map, and_assoc]

theorem filterMap_clauses {α : Type} (kind : WrittenClause → Option α) :
    (m.written o).clauses.filterMap kind =
      m.fields.filterMap (fun f => kind (.column f.written)) ++
        (m.foreignKeys.filterMap (fun fk => kind (.foreignKey fk)) ++
          m.uniqueGroups.filterMap fun group => kind (.unique group)) := by
  simp [written]

theorem columns_written : (m.written o).columns = m.fields.map Field.written := by
  simp [WrittenTable.columns, filterMap_clauses, WrittenClause.column?]

theorem columnNames_written : (m.written o).columnNames = m.columns := by
  rw [WrittenTable.columnNames, columns_written, List.map_map]
  rfl

theorem foreignKeys_written : (m.written o).foreignKeys = m.foreignKeys := by
  simp [WrittenTable.foreignKeys, filterMap_clauses, WrittenClause.foreignKey?]

theorem uniqueGroups_written : (m.written o).uniqueGroups = m.uniqueGroups := by
  simp [WrittenTable.uniqueGroups, filterMap_clauses, WrittenClause.unique?]

/-- **The statement for a model's table is written as it is to be.** -/
theorem createTable_eq (m : Model) (o : DdlOptions) : m.createTable o = (m.written o).sql := by
  have hclauses : m.tableClauses = (m.written o).clauses.map WrittenClause.sql := by
    have hcolumns : m.fields.map Field.columnSql = m.fields.map fun f => f.written.sql :=
      List.map_congr_left fun f _ => f.columnSql_eq
    rw [tableClauses, hcolumns, written, List.map_append, List.map_append, List.map_map, List.map_map,
      List.map_map]
    rfl
  show "CREATE TABLE " ++ o.guard ++ m.tableName ++ " (" ++ String.intercalate ", " m.tableClauses ++ ")" = _
  rw [hclauses]
  rfl

/-- A sound model has a column, and its columns come first. -/
theorem isSpelled_written (hm : m.IsSound) : (m.written o).IsSpelled where
  name_isValid := hm.tableName_isValid
  columns_ne_nil := by
    obtain ⟨f, hf⟩ := hm.exists_key
    rw [columns_written]
    rintro hnil
    rw [List.map_eq_nil_iff.1 hnil] at hf
    cases hf
  columns_first := by
    unfold written
    rw [List.pairwise_append, List.pairwise_append]
    refine ⟨⟨?_, ?_, ?_⟩, ?_, ?_⟩
    · exact List.pairwise_map.2 (List.pairwise_of_forall fun _ _ _ => rfl)
    · exact List.pairwise_map.2 (List.pairwise_of_forall fun _ _ h => nomatch h)
    · intro p hp q hq hcolumn
      obtain ⟨fk, -, rfl⟩ := List.mem_map.1 hq
      cases hcolumn
    · exact List.pairwise_map.2 (List.pairwise_of_forall fun _ _ h => nomatch h)
    · intro p hp q hq hcolumn
      obtain ⟨group, -, rfl⟩ := List.mem_map.1 hq
      cases hcolumn
  clauses_areSpelled := by
    have hcolumn : ∀ c ∈ m.columns, Identifier.isValid c = true := by
      intro c hc
      obtain ⟨f, hf, rfl⟩ := List.mem_map.1 hc
      exact (hm.fields_areSound f hf).columnName_isValid
    refine forall_clauses.2 ⟨fun f hf => ?_, fun fk hfk => ?_, fun group hgroup => ?_⟩
    · exact Field.isSpelled_written (hm.fields_areSound f hf)
    · exact ⟨hcolumn _ (hm.localColumn_mem fk hfk), hm.targetNames_areValid fk hfk⟩
    · exact fun c hc => hcolumn c (hm.uniqueColumn_mem group hgroup c hc)

/-- A definition does not end early if no text in it does. -/
theorem endsText_written : (m.written o).endsText = false ↔
    ∀ f ∈ m.fields, ∀ s, f.defaultValue = some (.text s) → ∀ c ∈ s.toList, c.toNat ≠ 0 := by
  have hclauses : (m.written o).endsText = false ↔ ∀ p ∈ (m.written o).clauses, p.endsText = false := by
    rw [WrittenTable.endsText, List.any_eq_false]
    exact forall₂_congr fun _ _ => Bool.not_eq_true _ ▸ Iff.rfl
  have hfield (f : Field) : (WrittenClause.column f.written).endsText = false ↔
      ∀ s, f.defaultValue = some (.text s) → ∀ c ∈ s.toList, c.toNat ≠ 0 := by
    unfold WrittenClause.endsText WrittenColumn.endsText Field.written
    rcases f.defaultValue with _ | _ | s | _ | _ <;>
      simp [DefaultValue.written, WrittenDefault.endsText]
  rw [hclauses, forall_clauses]
  exact ⟨fun h f hf => (hfield f).1 (h.1 f hf),
    fun h => ⟨fun f hf => (hfield f).2 (h f hf), fun _ _ => rfl, fun _ _ => rfl⟩⟩

end Model

end TypedTables

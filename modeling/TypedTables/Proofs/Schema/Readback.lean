import TypedTables.Proofs.Extraction.Registry
import TypedTables.Proofs.Schema.Grammar
import TypedTables.Proofs.Schema.Statement
/-!
# TypedTables — table definitions determine the schema

The text that creates a table is read back by the grammar alone, and gives
what it was written from: the name of the table, its columns with their types,
keys and defaults, its foreign keys and its unique groups, all in their order.
A default is one lexeme whatever stands in it, so no text changes the rest of
the statement.
-/

namespace TypedTables

open Token (Breaks doubled)
open WrittenTable (afterWords? optional pieces?)

variable {b : List Char} {ls rest : List TableLexeme}

/-! ## Words -/

namespace Identifier

theorem endsWord_of_isPart {c : Char} (h : isPart c = true) : TableLexeme.endsWord c = false := by
  have hword := Token.isWordPart_of_isPart h
  have hne : ∀ d : Char, Token.isWordPart d = false → c ≠ d := by
    rintro d hd rfl
    rw [hword] at hd
    cases hd
  simp [TableLexeme.endsWord, Token.isBlank, hne ' ' rfl, hne '\t' rfl, hne '\n' rfl, hne '\x0c' rfl,
    hne '\r' rfl, hne '(' rfl, hne ')' rfl, hne ',' rfl, hne '\x27' rfl]

end Identifier

namespace TableLexeme

theorem read_name {n : String} (hn : Identifier.isValid n = true) (hb : Breaks b) :
    read (n.toList ++ b) = (read b).map (.word n :: ·) := by
  obtain ⟨c, w, hw, -, hparts⟩ := Identifier.exists_cons_of_isValid hn
  have hword := read_word (List.cons_ne_nil c w) (fun d hd => Identifier.endsWord_of_isPart (hparts d hd)) hb
  rw [← hw, String.ofList_toList] at hword
  exact hword

/-- Words with a blank before each of them, by induction on them. -/
theorem read_words {ns : List String} (hns : ∀ n ∈ ns, Identifier.isValid n = true) (hb : Breaks b) :
    read (ns.flatMap (fun n => ' ' :: n.toList) ++ b) = (read b).map (ns.map .word ++ ·) := by
  induction ns with
  | nil => exact Option.map_id'.symm
  | cons n ns ih =>
    have hbreaks : Breaks (ns.flatMap (fun n => ' ' :: n.toList) ++ b) := by
      rcases ns with _ | ⟨m, ns⟩
      · exact hb
      · exact Token.breaks_blank
    rw [List.flatMap_cons, List.append_assoc, List.cons_append, read_blank,
      read_name (hns n List.mem_cons_self) hbreaks, ih fun m hm => hns m (List.mem_cons_of_mem n hm),
      Option.map_map]
    rfl

/-- Pieces with commas between them, by induction on them. -/
theorem read_intercalate {α : Type} (text : α → String) (lexemes : α → List TableLexeme) {xs : List α}
    (h : ∀ x ∈ xs, ∀ b, Breaks b → read ((text x).toList ++ b) = (read b).map (lexemes x ++ ·))
    (hb : Breaks b) :
    read ((String.intercalate ", " (xs.map text)).toList ++ b) =
      (read b).map (List.intercalate [.comma] (xs.map lexemes) ++ ·) := by
  induction xs with
  | nil => exact Option.map_id'.symm
  | cons x xs ih =>
    have hx := h x List.mem_cons_self
    have hrest := ih fun y hy => h y (List.mem_cons_of_mem x hy)
    rcases xs with _ | ⟨y, ys⟩
    · simpa using hx b hb
    · have htext : (String.intercalate ", " ((x :: y :: ys).map text)).toList ++ b =
          (text x).toList ++ ',' :: ' ' :: ((String.intercalate ", " ((y :: ys).map text)).toList ++ b) := by
        simp
      have hlexemes : List.intercalate [.comma] ((x :: y :: ys).map lexemes) =
          lexemes x ++ .comma :: List.intercalate [.comma] ((y :: ys).map lexemes) := by
        simp
      rw [htext, hlexemes, hx _ Token.breaks_comma, read_comma, read_blank, hrest, Option.map_map,
        Option.map_map]
      simp [Function.comp_def]

end TableLexeme

/-! ## Defaults -/

namespace Token.IsNumeral

variable {w : List Char}

theorem endsWord_eq_false (hw : IsNumeral w) : ∀ c ∈ w, TableLexeme.endsWord c = false := by
  obtain ⟨whole, fraction, -, hdigits, hw⟩ := hw.exists_digits
  have hdigit : ∀ c ∈ whole ++ fraction, TableLexeme.endsWord c = false := fun c hc => by
    refine Identifier.endsWord_of_isPart ?_
    simp [Identifier.isPart, Char.isAlphanum, hdigits c hc]
  rcases hw with ⟨rfl, -⟩ | rfl
  · exact hdigit
  · intro c hc
    simp only [List.mem_append, List.mem_cons] at hc hdigit
    rcases hc with hc | rfl | hc
    · exact hdigit c (.inl hc)
    · rfl
    · exact hdigit c (.inr hc)

theorem isNumber (hw : IsNumeral w) : WrittenTable.isNumber w = true ∧
    WrittenTable.isNumber ('-' :: w) = true := by
  obtain ⟨v, hv, -⟩ := hw.exists_value
  have hread : (readNumber w).any (·.2.isEmpty) = true := by rw [hv]; rfl
  refine ⟨?_, hread⟩
  obtain ⟨c, w, rfl, hc⟩ := hw.exists_cons
  unfold WrittenTable.isNumber
  split
  · exact absurd hc (by simp_all)
  · exact hread

end Token.IsNumeral

namespace WrittenDefault

variable {d : WrittenDefault}

def lexeme : WrittenDefault → TableLexeme
  | number spelling => .word spelling
  | text content => .quoted content

/-- **A text is one lexeme**, whatever stands in it. -/
theorem read_text (s : String) (hb : ∀ c ∈ b.head?, c ≠ '\x27') :
    TableLexeme.read ((text s).sql.toList ++ b) = (TableLexeme.read b).map (.quoted s :: ·) := by
  rw [sql_text, TableLexeme.read_quoted s.toList hb, String.ofList_toList]

/-- Every other literal is a word, and a number. -/
theorem isNumber_spelling {spelling : String} (hd : (number spelling).IsSpelled) :
    spelling.toList ≠ [] ∧ (∀ c ∈ spelling.toList, TableLexeme.endsWord c = false) ∧
      WrittenTable.isNumber spelling.toList = true := by
  obtain ⟨w, hw, hsql⟩ := hd
  have hends := hw.endsWord_eq_false
  rcases hsql with hsql | hsql <;> rw [hsql]
  · obtain ⟨c, rest, rfl, -⟩ := hw.exists_cons
    exact ⟨List.cons_ne_nil c rest, hends, hw.isNumber.1⟩
  · refine ⟨List.cons_ne_nil _ w, fun c hc => ?_, hw.isNumber.2⟩
    rcases List.mem_cons.1 hc with rfl | hc
    · rfl
    · exact hends c hc

/-- **A literal is one lexeme.** -/
theorem read_sql (hd : d.IsSpelled) (hb : Breaks b) :
    TableLexeme.read (d.sql.toList ++ b) = (TableLexeme.read b).map (d.lexeme :: ·) := by
  cases d with
  | text s => exact read_text s (TableLexeme.breaks_ne_quote hb)
  | number spelling =>
    obtain ⟨hnil, hends, -⟩ := isNumber_spelling hd
    rw [sql, TableLexeme.read_word hnil hends hb, String.ofList_toList]
    rfl

theorem literal?_lexeme (hd : d.IsSpelled) : WrittenTable.literal? [d.lexeme] = some d := by
  cases d with
  | text s => rfl
  | number spelling => exact if_pos (isNumber_spelling hd).2.2

end WrittenDefault

/-! ## Columns -/

namespace ColumnConstraint

def lexemes (c : ColumnConstraint) : List TableLexeme :=
  c.words.map .word ++ (c.literal?.map WrittenDefault.lexeme).toList

theorem read_text (c : ColumnConstraint) (hc : c.IsSpelled) (hb : Breaks b) :
    TableLexeme.read (c.text ++ b) = (TableLexeme.read b).map (c.lexemes ++ ·) := by
  rcases hlit : c.literal? with _ | d
  · simp only [text, lexemes, hlit, Option.map_none, Option.getD_none, Option.toList_none, List.append_nil]
    exact TableLexeme.read_words c.words_areValid hb
  · have hspelled := hc d hlit
    simp only [text, lexemes, hlit, Option.map_some, Option.getD_some, Option.toList_some, List.append_assoc,
      List.cons_append]
    rw [TableLexeme.read_words c.words_areValid Token.breaks_blank, TableLexeme.read_blank,
      WrittenDefault.read_sql hspelled hb, Option.map_map]
    rfl

/-- Constraints one after the other, by induction on them. -/
theorem read_flatMap_text {cs : List ColumnConstraint} (hcs : ∀ c ∈ cs, c.IsSpelled) (hb : Breaks b) :
    TableLexeme.read (cs.flatMap text ++ b) = (TableLexeme.read b).map (cs.flatMap lexemes ++ ·) := by
  induction cs with
  | nil => exact Option.map_id'.symm
  | cons c cs ih =>
    have hbreaks : Breaks (cs.flatMap text ++ b) := by
      rcases cs with _ | ⟨d, cs⟩
      · exact hb
      · rcases d with (_ | _) | _ | _ | _ <;> exact Token.breaks_blank
    rw [List.flatMap_cons, List.append_assoc, read_text c (hcs c List.mem_cons_self) hbreaks,
      ih fun d hd => hcs d (List.mem_cons_of_mem c hd), Option.map_map, List.flatMap_cons]
    simp [Function.comp_def]

end ColumnConstraint

namespace WrittenTable

/-- Keywords that stand here are taken. -/
theorem afterWords?_append (ws : List String) : afterWords? ws (ws.map .word ++ ls) = some ls := by
  induction ws with
  | nil => rfl
  | cons w ws ih =>
    have hsame : Keyword.same w w = true := beq_self_eq_true _
    rw [List.map_cons, List.cons_append, afterWords?, if_pos hsame, ih]

/-- The first word decides that keywords do not stand here. -/
theorem afterWords?_cons {w : String} {ws : List String} (h : afterWords? [w] ls = none) :
    afterWords? (w :: ws) ls = none := by
  rcases ls with _ | ⟨_ | _ | _ | _ | _, ls⟩ <;> first | rfl | skip
  simp only [afterWords?] at h ⊢
  split at h <;> simp_all

/-- Keywords are taken where they stand, and nothing is where they do not. -/
theorem optional_ite (ws : List String) (p : Bool) (h : afterWords? ws ls = none) :
    optional ws ((if p then ws.map .word else []) ++ ls) = (p, ls) := by
  cases p
  · simp [optional, h]
  · rw [if_pos rfl, optional, afterWords?_append]

/-- Keywords that may stand here are not taken for others. -/
theorem afterWords?_ite {w v : String} (vs : List String) (p : Bool) (hne : Keyword.same v w = false)
    (h : afterWords? [w] ls = none) :
    afterWords? [w] ((if p then (v :: vs).map .word else []) ++ ls) = none := by
  cases p
  · exact h
  · simp [afterWords?, hne]

/-- A column is numbered only as a key. -/
theorem autoIncrement_ite (isKey p : Bool) (h : afterWords? ["AUTOINCREMENT"] ls = none) :
    autoIncrement isKey ((if isKey && p then ["AUTOINCREMENT"].map .word else []) ++ ls) =
      (isKey && p, ls) := by
  cases isKey
  · rfl
  · exact optional_ite _ p h

end WrittenTable

namespace WrittenColumn

variable {c : WrittenColumn}

def lexemes (c : WrittenColumn) : List TableLexeme :=
  .word c.name :: .word c.affinity.sql :: c.constraints.flatMap ColumnConstraint.lexemes

theorem read_sql (hc : c.IsSpelled) (hb : Breaks b) :
    TableLexeme.read (c.sql.toList ++ b) = (TableLexeme.read b).map (c.lexemes ++ ·) := by
  have hbreaks : Breaks (c.constraints.flatMap ColumnConstraint.text ++ b) := by
    rcases c.constraints with _ | ⟨x, xs⟩
    · exact hb
    · rcases x with (_ | _) | _ | _ | _ <;> exact Token.breaks_blank
  rw [sql_toList, List.append_assoc, List.cons_append, List.append_assoc,
    TableLexeme.read_name hc.name_isValid Token.breaks_blank, TableLexeme.read_blank,
    TableLexeme.read_name c.affinity.sql_isName.1 hbreaks,
    ColumnConstraint.read_flatMap_text (isSpelled_constraints hc) hb, Option.map_map, Option.map_map]
  rfl

theorem affinity?_sql (a : Affinity) : WrittenTable.affinity? (.word a.sql :: ls) = some (a, ls) := by
  cases a <;> rfl

theorem name?_word {n : String} (hn : Identifier.isValid n = true) :
    WrittenTable.name? (.word n :: ls) = some (n, ls) := if_pos hn

theorem ownName?_word {n : String} (hn : Identifier.isValid n = true)
    (hfree : Keyword.isReserved n = false) : WrittenTable.ownName? (.word n :: ls) = some (n, ls) := by
  simp [WrittenTable.ownName?, name?_word hn, hfree]

/-- The constraints of a column, each where it is written. -/
theorem flatMap_lexemes_constraints (c : WrittenColumn) : c.constraints.flatMap ColumnConstraint.lexemes =
    (if c.isPrimaryKey then ["PRIMARY", "KEY"].map .word else []) ++
      ((if c.isPrimaryKey && c.isAutoIncrement then ["AUTOINCREMENT"].map .word else []) ++
        ((if c.isNotNull then ["NOT", "NULL"].map .word else []) ++
          ((if c.isUnique then ["UNIQUE"].map .word else []) ++
            ((if c.defaultValue.isSome then ["DEFAULT"].map .word else []) ++
              (c.defaultValue.map WrittenDefault.lexeme).toList)))) := by
  unfold constraints
  cases c.isPrimaryKey <;> cases c.isAutoIncrement <;> cases c.isNotNull <;> cases c.isUnique <;>
    cases c.defaultValue <;> rfl

/-- The default of a column, where there is one, is read to the end of the clause. -/
theorem default?_lexemes (hc : c.IsSpelled) :
    WrittenTable.default? ((if c.defaultValue.isSome then ["DEFAULT"].map .word else []) ++
      (c.defaultValue.map WrittenDefault.lexeme).toList) = some c.defaultValue := by
  rcases hdefault : c.defaultValue with _ | d
  · rfl
  · have hliteral := WrittenDefault.literal?_lexeme (hc.default_isSpelled d hdefault)
    have hwords : optional ["DEFAULT"] (["DEFAULT"].map .word ++ [d.lexeme]) = (true, [d.lexeme]) := by
      rw [WrittenTable.optional, WrittenTable.afterWords?_append]
    simp only [Option.isSome_some, if_true, Option.map_some, Option.toList_some, WrittenTable.default?, hwords,
      hliteral]

/-- No other keyword is taken for that of a default. -/
theorem afterWords?_default {w : String} (hne : Keyword.same "DEFAULT" w = false) :
    afterWords? [w] ((if c.defaultValue.isSome then ["DEFAULT"].map .word else []) ++
      (c.defaultValue.map WrittenDefault.lexeme).toList) = none := by
  cases c.defaultValue
  · rfl
  · simp [afterWords?, hne]

/-- **A column is read as it is written.** Only a key is numbered. -/
theorem column?_lexemes (hc : c.IsSpelled) (hfree : Keyword.isReserved c.name = false)
    (hkeyed : c.isAutoIncrement = true → c.isPrimaryKey = true) : WrittenTable.column? c.lexemes = some c := by
  have hunique := WrittenTable.optional_ite ["UNIQUE"] c.isUnique
    (c.afterWords?_default (by decide +kernel))
  have hrequired := WrittenTable.optional_ite ["NOT", "NULL"] c.isNotNull
    (WrittenTable.afterWords?_cons (WrittenTable.afterWords?_ite (v := "UNIQUE") []
      c.isUnique (by decide +kernel) (c.afterWords?_default (by decide +kernel))))
  -- what comes after the key starts with none of the words of a key
  have hafter (w : String) (hnot : Keyword.same "NOT" w = false) (hother : Keyword.same "UNIQUE" w = false)
      (hdefault : Keyword.same "DEFAULT" w = false) :=
    WrittenTable.afterWords?_ite ["NULL"] c.isNotNull hnot
      (WrittenTable.afterWords?_ite [] c.isUnique hother (c.afterWords?_default hdefault))
  have hnumbered := WrittenTable.autoIncrement_ite c.isPrimaryKey c.isAutoIncrement
    (hafter "AUTOINCREMENT" (by decide +kernel) (by decide +kernel) (by decide +kernel))
  have hkey := WrittenTable.optional_ite ["PRIMARY", "KEY"] c.isPrimaryKey
    (WrittenTable.afterWords?_cons (WrittenTable.afterWords?_ite (v := "AUTOINCREMENT") []
      (c.isPrimaryKey && c.isAutoIncrement) (by decide +kernel)
      (hafter "PRIMARY" (by decide +kernel) (by decide +kernel) (by decide +kernel))))
  have hauto : (c.isPrimaryKey && c.isAutoIncrement) = c.isAutoIncrement := by
    cases hk : c.isPrimaryKey <;> cases ha : c.isAutoIncrement <;> simp_all
  unfold WrittenTable.column? lexemes
  rw [flatMap_lexemes_constraints, ownName?_word hc.name_isValid hfree]
  simp only [bind, Option.bind, affinity?_sql, hkey, hnumbered, hrequired, hunique, default?_lexemes hc]
  rw [hauto]
  rfl

end WrittenColumn

/-! ## Clauses -/

namespace WrittenClause

variable {p : WrittenClause} {ps : List WrittenClause}

def nameLexemes (columns : List String) : List TableLexeme :=
  List.intercalate [.comma] (columns.map fun c => [.word c])

def lexemes : WrittenClause → List TableLexeme
  | column c => c.lexemes
  | foreignKey fk =>
    ["FOREIGN", "KEY"].map .word ++ .opens :: .word fk.localColumn :: .closes :: (["REFERENCES"].map .word ++
      .word fk.targetTable :: .opens :: .word fk.targetColumn :: [.closes])
  | unique columns => ["UNIQUE"].map .word ++ .opens :: (nameLexemes columns ++ [.closes])

/-- Whether a clause can be told from the others: a column is not called like a
keyword, and numbered only as a key, and a unique group has columns. -/
def IsTold : WrittenClause → Prop
  | column c => Keyword.isReserved c.name = false ∧ (c.isAutoIncrement = true → c.isPrimaryKey = true)
  | foreignKey _ => True
  | unique columns => columns ≠ []

theorem read_names {ns : List String} (hns : ∀ n ∈ ns, Identifier.isValid n = true) (hb : Breaks b) :
    TableLexeme.read ((String.intercalate ", " ns).toList ++ b) =
      (TableLexeme.read b).map (nameLexemes ns ++ ·) := by
  have hall := TableLexeme.read_intercalate id (fun n => [.word n])
    (fun n hn _ hb => TableLexeme.read_name (hns n hn) hb) hb
  rwa [List.map_id] at hall

/-- **A clause is read as its lexemes.** -/
theorem read_sql (hp : p.IsSpelled) (hb : Breaks b) :
    TableLexeme.read (p.sql.toList ++ b) = (TableLexeme.read b).map (p.lexemes ++ ·) := by
  cases p with
  | column c => exact WrittenColumn.read_sql hp hb
  | foreignKey fk =>
    obtain ⟨hlocal, htable, hcolumn⟩ := hp
    rw [foreignKey_sql_toList]
    simp only [List.append_assoc, List.cons_append, List.nil_append]
    rw [TableLexeme.read_name (n := "FOREIGN") rfl Token.breaks_blank, TableLexeme.read_blank,
      TableLexeme.read_name (n := "KEY") rfl Token.breaks_blank, TableLexeme.read_blank, TableLexeme.read_opens,
      TableLexeme.read_name hlocal Token.breaks_close, TableLexeme.read_closes, TableLexeme.read_blank,
      TableLexeme.read_name (n := "REFERENCES") rfl Token.breaks_blank, TableLexeme.read_blank,
      TableLexeme.read_name htable Token.breaks_open, TableLexeme.read_opens,
      TableLexeme.read_name hcolumn Token.breaks_close, TableLexeme.read_closes]
    simp only [Option.map_map]
    rfl
  | unique columns =>
    rw [unique_sql_toList]
    simp only [List.append_assoc, List.cons_append, List.nil_append]
    rw [TableLexeme.read_name (n := "UNIQUE") rfl Token.breaks_blank, TableLexeme.read_blank, TableLexeme.read_opens,
      read_names hp Token.breaks_close, TableLexeme.read_closes]
    simp [lexemes, Function.comp_def]

theorem names?_nameLexemes {ns : List String} (hne : ns ≠ [])
    (hns : ∀ n ∈ ns, Identifier.isValid n = true) :
    WrittenTable.names? (nameLexemes ns ++ [.closes]) = some ns := by
  induction ns with
  | nil => exact absurd rfl hne
  | cons n ns ih =>
    have hn := hns n List.mem_cons_self
    rcases ns with _ | ⟨m, ns⟩
    · simp [nameLexemes, WrittenTable.names?, hn]
    · have hrest := ih (List.cons_ne_nil m ns) fun k hk => hns k (List.mem_cons_of_mem n hk)
      have hlexemes : nameLexemes (n :: m :: ns) ++ [.closes] =
          .word n :: .comma :: (nameLexemes (m :: ns) ++ [.closes]) := by
        simp [nameLexemes]
      rw [hlexemes, WrittenTable.names?, if_pos hn, hrest]
      rfl

/-- A name that is not reserved is none of the words that a clause starts with. -/
theorem afterWords?_own {n w : String} {ws : List String} (hn : Keyword.isReserved n = false)
    (hw : Keyword.isReserved w = true) : afterWords? (w :: ws) (.word n :: ls) = none := by
  have hne : Keyword.same n w = false := by
    refine Bool.eq_false_iff.2 fun hsame => ?_
    rw [isReserved_of_same hsame hw] at hn
    cases hn
  simp [afterWords?, hne]

/-- **A clause is read as what it is.** -/
theorem clause?_lexemes (hp : p.IsSpelled) (htold : p.IsTold) : WrittenTable.clause? p.lexemes = some p := by
  cases p with
  | column c =>
    obtain ⟨hfree, hkeyed⟩ := htold
    have hforeign : afterWords? ["FOREIGN", "KEY"] c.lexemes = none :=
      afterWords?_own hfree (by decide +kernel)
    have hunique : afterWords? ["UNIQUE"] c.lexemes = none := afterWords?_own hfree (by decide +kernel)
    simp [WrittenTable.clause?, lexemes, hforeign, hunique, WrittenColumn.column?_lexemes hp hfree hkeyed]
  | foreignKey fk =>
    obtain ⟨hlocal, htable, hcolumn⟩ := hp
    have hreferences (ls : List TableLexeme) : afterWords? ["REFERENCES"] (.word "REFERENCES" :: ls) = some ls :=
      WrittenTable.afterWords?_append ["REFERENCES"]
    unfold WrittenTable.clause? lexemes
    rw [WrittenTable.afterWords?_append]
    simp [WrittenTable.foreignKey?, WrittenTable.nameInParens?, WrittenTable.after?, WrittenTable.name?, hlocal,
      htable, hcolumn, hreferences]
  | unique columns =>
    have hforeign (ls : List TableLexeme) : afterWords? ["FOREIGN", "KEY"] (["UNIQUE"].map .word ++ ls) = none := by
      have hne : Keyword.same "UNIQUE" "FOREIGN" = false := by decide +kernel
      simp [afterWords?, hne]
    unfold WrittenTable.clause? lexemes
    rw [hforeign, WrittenTable.afterWords?_append]
    simp [WrittenTable.after?, names?_nameLexemes htold hp]

/-! ### Where a clause ends -/

/-- Whether a piece of a definition stands whole in it: it is not cut. -/
def IsWhole (piece : List TableLexeme) : Prop :=
  ∀ taken rest, pieces? 0 taken (piece ++ rest) = pieces? 0 (piece.reverse ++ taken) rest

/-- What neither opens nor closes a parenthesis does not end a piece, and a comma
ends one only where it stands in none, by induction on what is passed. -/
theorem pieces?_pass {passed taken : List TableLexeme} {depth : Nat}
    (h : ∀ l ∈ passed, l ≠ .opens ∧ l ≠ .closes ∧ (depth = 0 → l ≠ .comma)) :
    pieces? depth taken (passed ++ rest) = pieces? depth (passed.reverse ++ taken) rest := by
  induction passed generalizing taken with
  | nil => rfl
  | cons l passed ih =>
    obtain ⟨hopens, hcloses, hcomma⟩ := h l List.mem_cons_self
    have hstep : pieces? depth taken (l :: (passed ++ rest)) = pieces? depth (l :: taken) (passed ++ rest) := by
      cases l with
      | comma => rw [pieces?, if_neg fun hzero => hcomma hzero rfl]
      | opens => contradiction
      | closes => contradiction
      | word _ => rfl
      | quoted _ => rfl
    rw [List.cons_append, hstep, ih fun k hk => h k (List.mem_cons_of_mem l hk), List.reverse_cons,
      List.append_assoc]
    rfl

theorem IsWhole.of_flat {flat : List TableLexeme} (h : ∀ l ∈ flat, l ≠ .opens ∧ l ≠ .closes ∧ l ≠ .comma) :
    IsWhole flat := by
  intro taken rest
  refine pieces?_pass fun l hl => ?_
  obtain ⟨hopens, hcloses, hcomma⟩ := h l hl
  exact ⟨hopens, hcloses, fun _ => hcomma⟩

theorem IsWhole.append {v w : List TableLexeme} (hv : IsWhole v) (hw : IsWhole w) : IsWhole (v ++ w) := by
  intro taken rest
  rw [List.append_assoc, hv, hw, List.reverse_append, List.append_assoc]

theorem IsWhole.parens (inner : List TableLexeme) (h : ∀ l ∈ inner, l ≠ .opens ∧ l ≠ .closes) :
    IsWhole (.opens :: (inner ++ [.closes])) := by
  intro taken rest
  -- commas between the parentheses are one level in
  have hinside : ∀ l ∈ inner, l ≠ .opens ∧ l ≠ .closes ∧ (0 + 1 = 0 → l ≠ .comma) := fun l hl =>
    ⟨(h l hl).1, (h l hl).2, fun hzero => absurd hzero (Nat.succ_ne_zero 0)⟩
  rw [List.cons_append, List.append_assoc, pieces?, pieces?_pass hinside]
  simp [pieces?]

theorem isWhole_words (ws : List String) : IsWhole (ws.map .word) := by
  refine .of_flat fun l hl => ?_
  obtain ⟨w, -, rfl⟩ := List.mem_map.1 hl
  exact ⟨nofun, nofun, nofun⟩

/-- A column has no parentheses and no commas but those in its default. -/
theorem isWhole_column (c : WrittenColumn) : IsWhole c.lexemes := by
  refine .append (isWhole_words [c.name, c.affinity.sql]) (.of_flat fun l hl => ?_)
  obtain ⟨x, -, hl⟩ := List.mem_flatMap.1 hl
  rcases List.mem_append.1 hl with hl | hl
  · obtain ⟨w, -, rfl⟩ := List.mem_map.1 hl
    exact ⟨nofun, nofun, nofun⟩
  · obtain ⟨d, -, rfl⟩ := Option.map_eq_some_iff.1 (Option.mem_toList.1 hl)
    cases d <;> exact ⟨nofun, nofun, nofun⟩

/-- Names with commas between them have no parentheses, by induction on them. -/
theorem ne_parens_of_mem_nameLexemes {ns : List String} {l : TableLexeme} (hl : l ∈ nameLexemes ns) :
    l ≠ .opens ∧ l ≠ .closes := by
  induction ns with
  | nil => nomatch hl
  | cons n ns ih =>
    rcases ns with _ | ⟨m, ns⟩
    · obtain rfl : l = .word n := by simpa [nameLexemes] using hl
      exact ⟨nofun, nofun⟩
    · have hcases : l = .word n ∨ l = .comma ∨ l ∈ nameLexemes (m :: ns) := by
        simpa [nameLexemes] using hl
      rcases hcases with rfl | rfl | hl
      · exact ⟨nofun, nofun⟩
      · exact ⟨nofun, nofun⟩
      · exact ih hl

/-- **Every clause stands whole** in the definition. -/
theorem isWhole_lexemes (p : WrittenClause) : IsWhole p.lexemes := by
  cases p with
  | column c => exact isWhole_column c
  | foreignKey fk =>
    have hparens (n : String) : IsWhole [.opens, .word n, .closes] :=
      IsWhole.parens [.word n] fun l hl => by
        rw [List.mem_singleton.1 hl]
        exact ⟨nofun, nofun⟩
    exact (isWhole_words ["FOREIGN", "KEY"]).append ((hparens fk.localColumn).append
      ((isWhole_words ["REFERENCES"]).append ((isWhole_words [fk.targetTable]).append
        (hparens fk.targetColumn))))
  | unique columns =>
    exact (isWhole_words ["UNIQUE"]).append (IsWhole.parens _ fun l hl => ne_parens_of_mem_nameLexemes hl)

/-- **Pieces with commas between them are cut at these commas**, by induction on
them. -/
theorem pieces?_intercalate {pieces : List (List TableLexeme)} (hne : pieces ≠ [])
    (h : ∀ piece ∈ pieces, IsWhole piece) :
    pieces? 0 [] (List.intercalate [.comma] pieces ++ [.closes]) = some pieces := by
  induction pieces with
  | nil => exact absurd rfl hne
  | cons piece pieces ih =>
    have hpiece := h piece List.mem_cons_self
    rcases pieces with _ | ⟨next, pieces⟩
    · rw [List.intercalate_singleton, hpiece]
      simp [pieces?]
    · have hrest := ih (List.cons_ne_nil next pieces) fun q hq => h q (List.mem_cons_of_mem piece hq)
      rw [List.intercalate_cons_cons, List.append_assoc, List.append_assoc, hpiece, List.append_nil,
        List.singleton_append, pieces?, if_pos rfl, hrest, List.reverse_reverse]
      rfl

/-- Clauses that can be told are read one by one. -/
theorem mapM_clause? (hps : ∀ p ∈ ps, p.IsSpelled ∧ p.IsTold) :
    (ps.map lexemes).mapM WrittenTable.clause? = some ps := by
  induction ps with
  | nil => rfl
  | cons p ps ih =>
    obtain ⟨hp, htold⟩ := hps p List.mem_cons_self
    rw [List.map_cons, List.mapM_cons, clause?_lexemes hp htold,
      ih fun q hq => hps q (List.mem_cons_of_mem p hq)]
    rfl

end WrittenClause

/-! ## Tables -/

namespace WrittenTable

variable {t : WrittenTable}

def lexemes (t : WrittenTable) : List TableLexeme :=
  ["CREATE", "TABLE"].map .word ++ ((if t.ifNotExists then ["IF", "NOT", "EXISTS"].map .word else []) ++
    .word t.name :: .opens :: (List.intercalate [.comma] (t.clauses.map WrittenClause.lexemes) ++ [.closes]))

/-- **The text that creates a table is read as its lexemes.** -/
theorem read_sql (ht : t.IsSpelled) : TableLexeme.read t.sql.toList = some t.lexemes := by
  have hclauses := TableLexeme.read_intercalate WrittenClause.sql WrittenClause.lexemes
    (fun p hp _ hb => WrittenClause.read_sql (ht.clauses_areSpelled p hp) hb) Token.breaks_close (b := [')'])
  have hguard : (guardWords t.ifNotExists).map TableLexeme.word =
      if t.ifNotExists then ["IF", "NOT", "EXISTS"].map .word else [] := by
    unfold guardWords
    cases t.ifNotExists <;> rfl
  rw [sql_toList, TableLexeme.read_name (n := "CREATE") rfl,
    TableLexeme.read_words (guardWords_areValid t.ifNotExists "TABLE" rfl) Token.breaks_blank,
    TableLexeme.read_blank, TableLexeme.read_name ht.name_isValid Token.breaks_blank, TableLexeme.read_blank,
    TableLexeme.read_opens, hclauses]
  · simp [lexemes, hguard]
  · exact Token.breaks_blank

/-- **The lexemes of a table are read as what it is written from**, if its own
name is not reserved and its clauses can be told. -/
theorem ofLexemes?_lexemes (ht : t.IsSpelled) (hfree : Keyword.isReserved t.name = false)
    (htold : ∀ p ∈ t.clauses, p.IsTold) : ofLexemes? t.lexemes = some t := by
  have hclauses := WrittenClause.mapM_clause? fun p hp => ⟨ht.clauses_areSpelled p hp, htold p hp⟩
  have hne : t.clauses.map WrittenClause.lexemes ≠ [] := by
    obtain ⟨c, ps, hclauses⟩ := exists_clauses_eq ht
    rw [hclauses]
    exact List.cons_ne_nil _ _
  have hpieces := WrittenClause.pieces?_intercalate hne fun piece hpiece => by
    obtain ⟨p, -, rfl⟩ := List.mem_map.1 hpiece
    exact p.isWhole_lexemes
  -- a table may be called like the first word of the guard, but a parenthesis comes after its name
  have hname (ls : List TableLexeme) :
      afterWords? ["IF", "NOT", "EXISTS"] (.word t.name :: .opens :: ls) = none := by
    simp [afterWords?]
  have hguard := optional_ite _ t.ifNotExists
    (hname (List.intercalate [.comma] (t.clauses.map WrittenClause.lexemes) ++ [.closes]))
  unfold ofLexemes? lexemes
  rw [afterWords?_append]
  simp only [bind, Option.bind, hguard, WrittenColumn.ownName?_word ht.name_isValid hfree, after?, if_true,
    hpieces, hclauses]
  rfl

/-- **The text of a table is the table.** -/
theorem ofText?_sql (ht : t.IsSpelled) (hfree : Keyword.isReserved t.name = false)
    (htold : ∀ p ∈ t.clauses, p.IsTold) : ofText? t.sql = some t := by
  rw [ofText?, read_sql ht]
  exact ofLexemes?_lexemes ht hfree htold

end WrittenTable

/-- **The text that creates a table determines the schema.** Read by the grammar
alone, it gives back the name of the table, all columns with their types, keys,
constraints and defaults, then the foreign keys and the unique groups, in the
order of their declaration. A literal means its default, in value where it is a
number. The literal of a text default is one lexeme, which stands for that text,
whatever stands in it and whatever comes after it. -/
theorem table_text_determines_schema {d : Declarations} {r : Registry} (h : extract d = .ok r) {m : Model}
    (hm : m ∈ r.models.values) (htable : Keyword.isReserved m.tableName = false)
    (hcolumns : ∀ c ∈ m.columns, Keyword.isReserved c = false) (hgroups : [] ∉ m.uniqueGroups)
    (o : DdlOptions) :
    WrittenTable.ofText? (m.createTable o) = some {
      ifNotExists := o.ifNotExists
      name := m.tableName
      clauses := m.fields.map (fun f => .column f.written) ++ m.foreignKeys.map .foreignKey ++
        m.uniqueGroups.map .unique } ∧
    (∀ f ∈ m.fields, ∀ d ∈ f.defaultValue, d.written.Means d) ∧
    ∀ s rest, (∀ c ∈ rest.head?, c ≠ '\x27') →
      TableLexeme.read ((DefaultValue.text s).sql.toList ++ rest) = (TableLexeme.read rest).map (.quoted s :: ·) := by
  have hsound := (isSound_of_extract h).models_areSound m hm
  have htold : ∀ p ∈ (m.written o).clauses, p.IsTold := by
    refine Model.forall_clauses.2 ⟨fun f hf => ?_, fun _ _ => trivial, ?_⟩
    · exact ⟨hcolumns _ (List.mem_map_of_mem hf),
        (hsound.fields_areSound f hf).isPrimaryKey_of_isAutoIncrement⟩
    · rintro group hgroup rfl
      exact hgroups hgroup
  refine ⟨?_, fun f hf d hd => ?_, fun s rest hrest => ?_⟩
  · rw [Model.createTable_eq]
    exact WrittenTable.ofText?_sql (Model.isSpelled_written hsound) htable htold
  · exact DefaultValue.means_written ((hsound.fields_areSound f hf).default_fits d hd)
  · rw [DefaultValue.sql_eq]
    exact WrittenDefault.read_text s hrest

/-- Letters, one of whose defaults looks like the end of the definition. They
belong to orders, whose table is called by a reserved word. -/
def letterDeclarations : Declarations where
  providers := [⟨"post", ProviderKind.localRoot, none, none⟩]
  models :=
    [{ name := "Order", table := some "order", packagePath := some "crate::post", provider := some "post",
        members := [⟨"id", some "i64", some { isPrimaryKey := true }, false⟩] },
      { name := "Letter", table := some "letters", packagePath := some "crate::post", provider := some "post",
        foreignKeys := [⟨"order_id", "order", "id"⟩], uniqueGroups := [["body", "order_id"]],
        members :=
          [⟨"id", some "i64", some { isPrimaryKey := true, isAutoIncrement := true }, false⟩,
            ⟨"body", some "String",
              some { isNotNull := true, defaultValue := some (.text "it\x27s), UNIQUE (\x27\x00\x27) --") },
              false⟩,
            ⟨"weight", some "Option<f64>", some { isUnique := true, defaultValue := some (.integer (-1)) },
              false⟩,
            ⟨"order_id", some "i64", some {}, false⟩] }]

/-- The table of letters as it is written. -/
def letterTable : WrittenTable where
  ifNotExists := true
  name := "letters"
  clauses :=
    [.column ⟨"id", .integer, true, true, false, false, none⟩,
      .column ⟨"body", .text, false, false, true, false, some (.text "it\x27s), UNIQUE (\x27\x00\x27) --")⟩,
      .column ⟨"weight", .real, false, false, false, true, some (.number "-1")⟩,
      .column ⟨"order_id", .integer, false, false, false, false, none⟩,
      .foreignKey ⟨"order_id", "order", "id"⟩, .unique ["body", "order_id"]]

theorem table_text_determines_schema_letter : ∃ r m, extract letterDeclarations = .ok r ∧
    m ∈ r.models.values ∧ Keyword.isReserved m.tableName = false ∧
    (∀ c ∈ m.columns, Keyword.isReserved c = false) ∧ [] ∉ m.uniqueGroups ∧
    WrittenTable.ofText? (m.createTable { ifNotExists := true }) = some letterTable := by
  have hok := extract_of_errors_eq_nil
    (show (Extraction.findings letterDeclarations).errors = [] by decide +kernel)
  obtain ⟨m, hm, htable, hcolumns, hgroups, hwritten⟩ : ∃ m ∈ (Extraction.register
      (Extraction.findings letterDeclarations).result.1
      (Extraction.findings letterDeclarations).result.2).models.values,
      Keyword.isReserved m.tableName = false ∧ (∀ c ∈ m.columns, Keyword.isReserved c = false) ∧
        [] ∉ m.uniqueGroups ∧ m.written { ifNotExists := true } = letterTable := by
    decide +kernel
  refine ⟨_, m, hok, hm, htable, hcolumns, hgroups, ?_⟩
  rw [(table_text_determines_schema hok hm htable hcolumns hgroups { ifNotExists := true }).1, ← hwritten]
  rfl

end TypedTables

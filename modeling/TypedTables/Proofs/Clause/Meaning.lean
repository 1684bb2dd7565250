import Mathlib.Data.List.Forall2
import TypedTables.Proofs.Clause.Compile
import TypedTables.Proofs.Expression.Hole
/-!
# TypedTables — the meaning of compiled clauses

The SQL of a clause says what the clause says.
-/

namespace TypedTables

/-! ## Texts of conditions -/

namespace Lexed

variable {cs ds : List Char} {ts us : List Lexeme}

/-- A text of one token. -/
theorem token {k : TokenKind} {t : Lexeme} (hk : Token.readKind cs = some (k, []))
    (ht : Lexeme.ofToken? k = some t) (hc : startsComment cs = false) : Lexed cs [t] := by
  have hne : cs ≠ [] := by
    rintro rfl
    cases hk
  have hl : Lexed (cs ++ []) [t] :=
    .lexeme hne (by rwa [List.append_nil]) (by rwa [List.append_nil]) ht .nil
  rwa [List.append_nil] at hl

/-- A text behind a text and a blank. -/
theorem after (hd : Lexed ds us) (h : Lexed cs ts) : Lexed (cs ++ ' ' :: ds) (ts ++ us) :=
  h.append hd.space Token.breaks_blank

theorem hole : Lexed ['?'] [.hole] := .token rfl rfl rfl

/-- Placeholders with commas between them. -/
theorem holes (v : Value) (vs : List Value) :
    Lexed (Sql.join ", " ((v :: vs).map Sql.bind)).text.toList
      (Lexeme.commas ((v :: vs).map fun _ => [.hole])) := by
  induction vs generalizing v with
  | nil =>
    rw [List.map_singleton, List.map_singleton, Sql.join_singleton, Lexeme.commas, Sql.text_bind]
    exact hole
  | cons w vs ih =>
    rw [List.map_cons, List.map_cons, Sql.join_cons_cons]
    simp only [Sql.text_append, Sql.text_bind, Sql.text_lit, String.toList_append]
    exact hole.append (ih w).space.comma Token.breaks_comma

/-- The operator of a comparison. -/
theorem operator (op : Operator) : Lexed op.sql.toList [.relation op] := by
  cases op <;> exact .token rfl rfl rfl

/-- A name of a column, up to what is no part of one. -/
theorem path {names : List (List Char)} (hne : names ≠ []) (hn : ∀ name ∈ names, Clause.IsName name) :
    Lexed (['.'].intercalate names) (Lexeme.path (names.map String.ofList)) := by
  induction names with
  | nil => exact absurd rfl hne
  | cons name names ih =>
    have hname := hn name List.mem_cons_self
    rcases name with _ | ⟨c, w⟩
    · exact absurd hname id
    obtain ⟨hc, hall, ht⟩ := hname
    have hw : ∀ d ∈ w, Token.isWordPart d = true := List.all_eq_true.1 hall
    rcases names with _ | ⟨next, names⟩
    · have hl := Lexed.word .nil hc hw ht (by simp) (by simp)
      simpa [Lexeme.path] using hl
    · have hrest := ih (by simp) fun n h => hn n (List.mem_cons_of_mem _ h)
      have hdot : Lexed (['.'] ++ ['.'].intercalate (next :: names))
          (.dot :: Lexeme.path ((next :: names).map String.ofList)) := by
        have hnext := hn next (List.mem_cons_of_mem _ List.mem_cons_self)
        rcases next with _ | ⟨d, v⟩
        · exact absurd hnext id
        have hd := hnext.1
        obtain ⟨tail, htail⟩ : ∃ tail, ['.'].intercalate ((d :: v) :: names) = d :: tail := by
          rcases names with _ | ⟨_, _⟩ <;> simp
        have hk : Token.readKind ('.' :: d :: tail) = some (.symbol ".", d :: tail) := by
          simp [Token.readKind, Token.isDigit_of_isWordStart hd, Token.isWordStart, Token.readSymbol]
        exact .lexeme (by simp) rfl (htail ▸ hk) rfl hrest
      have hl := Lexed.word hdot hc hw ht (by simp; decide) (by simp)
      rw [List.intercalate_cons_cons, List.append_assoc]
      exact hl

theorem column {column : String} (h : Clause.IsColumnName column) :
    Lexed column.toList (Lexeme.path (columnPath column)) := by
  have hl := path (List.splitOn_ne_nil '.' column.toList) h
  rwa [List.intercalate_splitOn] at hl

end Lexed

/-! ## What a fragment says -/

/-- **A fragment says something of every row**: it is a condition of a level,
with an argument for each of its placeholders, and with these in their places
it has the given truth value. -/
def Sql.Says (s : Sql) (level : Level) (truth : Record → Option Bool) : Prop :=
  ∃ ts e, Lexed s.text.toList ts ∧ Derives level ts e ∧ e.holes = s.args.length ∧
    ∀ row, (e.bind s.args).truth row = truth row

/-- **A fragment reads as something of every row**: its text is one condition
and no other, with an argument for each of its placeholders, and with these in
their places it has the given truth value. -/
def Sql.Reads (s : Sql) (truth : Record → Option Bool) : Prop :=
  ∃ e, Parses s.text e ∧ (∀ e', Parses s.text e' → e' = e) ∧ e.holes = s.args.length ∧
    ∀ row, (e.bind s.args).truth row = truth row

namespace Sql.Says

open Expression

variable {s a b : Sql} {level : Level} {t u : Record → Option Bool} {column : String}

theorem of_le {loose : Level} (h : s.Says level t) (hr : level.rank ≤ loose.rank) : s.Says loose t := by
  obtain ⟨ts, e, hl, hd, hh, ht⟩ := h
  exact ⟨ts, e, hl, hd.of_le hr, hh, ht⟩

/-- In parentheses, every condition holds tight. -/
theorem parens (h : s.Says .disjunction t) : s.parens.Says .primary t := by
  obtain ⟨ts, e, hl, hd, hh, ht⟩ := h
  refine ⟨_, e, ?_, .parens hd, ?_, ?_⟩
  · rw [text_parens, String.toList_append, String.toList_append, List.append_assoc]
    exact (hl.append Lexed.nil.closes Token.breaks_close).opens
  · rw [args_parens, hh]
  · rw [args_parens]
    exact ht

theorem not (h : s.Says .negation t) :
    (lit "NOT " ++ s).Says .negation fun row => Truth.not (t row) := by
  obtain ⟨ts, e, hl, hd, hh, ht⟩ := h
  refine ⟨_, _, ?_, .not hd, hh, fun row => ?_⟩
  · rw [text_append, text_lit, String.toList_append]
    have hn : Lexed ['N', 'O', 'T'] [.word .not] := .token rfl rfl rfl
    exact hl.after hn
  · simp only [args_append, args_lit, List.nil_append, Expression.bind, truth_not, ht]

end Sql.Says

namespace Connective

theorem lexed (k : Connective) : Lexed k.sql.toList [k.op.lexeme] := by
  cases k <;> exact .token rfl rfl rfl

end Connective

namespace Sql.Says

open Expression

variable {s a b : Sql} {level : Level} {t u : Record → Option Bool} {column : String}

/-- **Two conditions with a connective between them** say what the connective
makes of the two, where the second one holds tighter. -/
theorem both (k : Connective) (ha : a.Says k.op.level t) (hb : b.Says k.op.level.tighter u) :
    (a ++ lit (" " ++ k.sql ++ " ") ++ b).Says k.op.level fun row => k.both (t row) (u row) := by
  obtain ⟨ts, x, hla, hda, hha, hta⟩ := ha
  obtain ⟨us, y, hlb, hdb, hhb, htb⟩ := hb
  refine ⟨_, _, ?_, .binary hda hdb, ?_, fun row => ?_⟩
  · have hl := (hlb.after k.lexed).after hla
    have htext : (a ++ lit (" " ++ k.sql ++ " ") ++ b).text.toList =
        a.text.toList ++ ' ' :: (k.sql.toList ++ ' ' :: b.text.toList) := by
      simp
    rw [htext]
    exact hl
  · simp [holes, hha, hhb]
  · have hargs : (a ++ lit (" " ++ k.sql ++ " ") ++ b).args = a.args ++ b.args := by simp
    have hdrop : (a.args ++ b.args).drop x.holes = b.args := by rw [hha, List.drop_left]
    rw [hargs, Expression.bind, Expression.bind_append hha, hdrop, truth_binary, hta, htb]

/-- **A chain of conditions** says what its connective makes of them all. The
first two are put together first, as the chain is read. -/
theorem join (k : Connective) {rest : List Sql} {us : List (Record → Option Bool)}
    (ha : a.Says k.op.level t) (hs : List.Forall₂ (fun s u => s.Says k.op.level.tighter u) rest us) :
    (Sql.join (" " ++ k.sql ++ " ") (a :: rest)).Says k.op.level
      fun row => k.together (t row :: us.map fun u => u row) := by
  induction hs generalizing a t with
  | nil =>
    simp only [join_singleton, List.map_nil, Connective.together_singleton]
    exact ha
  | @cons b u rest us hb _ ih =>
    rw [join_first_two]
    simp only [List.map_cons, ← Connective.together_first_two]
    exact ih (both k ha hb)

/-- What a fragment says it is read as, as the grammar is unambiguous. -/
theorem reads (h : s.Says .disjunction t) : s.Reads t := by
  obtain ⟨ts, e, hl, hd, hh, ht⟩ := h
  exact ⟨e, ⟨ts, hl, hd⟩, fun _ h' => h'.unique ⟨ts, hl, hd⟩, hh, ht⟩

/-! ## What the leaves of a clause say -/

theorem derives_column (column : String) :
    Derives .sum (Lexeme.path (columnPath column)) (.column (columnPath column)) := by
  refine Derives.of_le (.column ?_) (by decide)
  simp [columnPath, List.splitOn_ne_nil]

theorem derives_hole : Derives .sum [.hole] .hole := .of_le .hole (by decide)

theorem compare (h : Clause.IsColumnName column) (op : Operator) (v : Value) :
    (lit (column ++ " " ++ op.sql ++ " ") ++ Sql.bind v).Says .test fun row =>
      op.compares (row.column (columnPath column)) (none, v) := by
  have hd := @Derives.compare op _ _ _ _ (derives_column column) derives_hole
  refine ⟨_, _, ?_, hd, rfl, fun row => ?_⟩
  · have hl := (Lexed.hole.after (Lexed.operator op)).after (Lexed.column h)
    have htext : (lit (column ++ " " ++ op.sql ++ " ") ++ Sql.bind v).text.toList =
        column.toList ++ ' ' :: (op.sql.toList ++ ' ' :: ['?']) := by
      simp
    rw [htext]
    exact hl
  · exact truth_compare row (.column (columnPath column)) (.literal v) op

theorem isNull (h : Clause.IsColumnName column) :
    (lit (column ++ " IS NULL")).Says .test fun row =>
      some (row.column (columnPath column)).2.isNull := by
  have hd := @Derives.isNull false _ _ (derives_column column)
  refine ⟨_, _, ?_, hd, rfl, fun row => truth_isNull row (.column (columnPath column))⟩
  have hn : Lexed ['N', 'U', 'L', 'L'] [.word .null] := .token rfl rfl rfl
  have hi : Lexed ['I', 'S'] [.word .is] := .token rfl rfl rfl
  rw [text_lit, String.toList_append]
  exact (hn.after hi).after (Lexed.column h)

theorem isNotNull (h : Clause.IsColumnName column) :
    (lit (column ++ " IS NOT NULL")).Says .test fun row =>
      some !(row.column (columnPath column)).2.isNull := by
  have hd := @Derives.isNull true _ _ (derives_column column)
  refine ⟨_, _, ?_, hd, rfl, fun row => ?_⟩
  · have hn : Lexed ['N', 'U', 'L', 'L'] [.word .null] := .token rfl rfl rfl
    have ht : Lexed ['N', 'O', 'T'] [.word .not] := .token rfl rfl rfl
    have hi : Lexed ['I', 'S'] [.word .is] := .token rfl rfl rfl
    rw [text_lit, String.toList_append]
    exact ((hn.after ht).after hi).after (Lexed.column h)
  · exact (truth_not row _).trans (congrArg Truth.not (truth_isNull row (.column (columnPath column))))

theorem holesOf_holes (vs : List Value) : holesOf (vs.map fun _ => hole) = vs.length := by
  induction vs with
  | nil => rfl
  | cons v vs ih =>
    rw [List.map_cons, holesOf, ih, List.length_cons]
    exact Nat.add_comm 1 vs.length

theorem values_bindEach_holes (row : Record) (vs : List Value) :
    values row (bindEach vs (vs.map fun _ => hole)) = vs := by
  induction vs with
  | nil => rfl
  | cons v vs ih => exact congrArg (v :: ·) ih

theorem isIn (h : Clause.IsColumnName column) (v : Value) (vs : List Value) :
    (lit (column ++ " IN ") ++ (Sql.join ", " ((v :: vs).map Sql.bind)).parens).Says .test fun row =>
      (row.column (columnPath column)).isOneOf (v :: vs) := by
  have hd := @Derives.isIn false _ _ ((v :: vs).map fun _ => ([.hole], .hole))
    (derives_column column) (by simp) (by
      intro i hi
      obtain ⟨_, -, rfl⟩ := List.mem_map.1 hi
      exact .of_le .hole (by decide))
  rw [List.map_map, List.map_map] at hd
  -- the placeholders of the list take the values in their order
  have hargs : (lit (column ++ " IN ") ++ (Sql.join ", " ((v :: vs).map Sql.bind)).parens).args =
      v :: vs := by
    simp [Sql.join, List.flatMap_map]
  refine ⟨_, _, ?_, hd, ?_, fun row => ?_⟩
  · have hi : Lexed ['I', 'N'] [.word .isIn] := .token rfl rfl rfl
    have hl := (((Lexed.holes v vs).append Lexed.nil.closes Token.breaks_close).opens.after hi).after
      (Lexed.column h)
    rw [text_append, text_lit, text_parens]
    simp only [String.toList_append, List.append_assoc]
    exact hl
  · rw [hargs]
    exact (Nat.zero_add _).trans (holesOf_holes (v :: vs))
  · rw [hargs]
    refine (truth_isIn row (.column (columnPath column)) _).trans ?_
    exact congrArg _ (values_bindEach_holes row (v :: vs))

theorem between (h : Clause.IsColumnName column) (low high : Value) :
    (lit (column ++ " BETWEEN ") ++ Sql.bind low ++ lit " AND " ++ Sql.bind high).Says .test fun row =>
      (row.column (columnPath column)).isBetween (none, low) (none, high) := by
  have hd := @Derives.between false _ _ _ _ _ _ (derives_column column) derives_hole derives_hole
  refine ⟨_, _, ?_, hd, rfl, fun row => ?_⟩
  · have hb : Lexed ['B', 'E', 'T', 'W', 'E', 'E', 'N'] [.word .between] := .token rfl rfl rfl
    have ha : Lexed ['A', 'N', 'D'] [.word .and] := .token rfl rfl rfl
    have hl := (((Lexed.hole.after ha).after Lexed.hole).after hb).after (Lexed.column h)
    have htext : (lit (column ++ " BETWEEN ") ++ Sql.bind low ++ lit " AND " ++ Sql.bind high).text.toList =
        column.toList ++ ' ' :: (['B', 'E', 'T', 'W', 'E', 'E', 'N'] ++
          ' ' :: (['?'] ++ ' ' :: (['A', 'N', 'D'] ++ ' ' :: ['?']))) := by
      simp
    rw [htext]
    exact hl
  · exact truth_between row (.column (columnPath column)) (.literal low) (.literal high)

theorem columns {left right : String} (hl : Clause.IsColumnName left)
    (hr : Clause.IsColumnName right) :
    (lit (left ++ " = " ++ right)).Says .test fun row =>
      Operator.equal.compares (row.column (columnPath left)) (row.column (columnPath right)) := by
  have hd := @Derives.compare .equal _ _ _ _ (derives_column left) (derives_column right)
  refine ⟨_, _, ?_, hd, rfl, fun row => ?_⟩
  · have ht := ((Lexed.column hr).after (Lexed.operator .equal)).after (Lexed.column hl)
    rw [text_lit, String.toList_append, String.toList_append, List.append_assoc]
    exact ht
  · exact truth_compare row (.column (columnPath left)) (.column (columnPath right)) .equal

/-- Raw text says what it is read as. -/
theorem raw {sql : String} {args : List Value} {e : Expression} (h : Parses sql e)
    (hh : e.holes = args.length) :
    Sql.Says ⟨sql, args⟩ .disjunction fun row =>
      (Expression.ofText? sql).bind fun e => (e.bind args).truth row := by
  obtain ⟨ts, hl, hd⟩ := h
  refine ⟨ts, e, hl, hd, hh, fun row => ?_⟩
  simp only [Expression.ofText?_of_parses ⟨ts, hl, hd⟩, Option.bind_some]

end Sql.Says

/-! ## What compiled clauses say -/

namespace Clause

open Sql

variable {s : Sql}

/-- The level at which the SQL of a clause holds together. A clause that is
put in parentheses inside a group may hold loosely. -/
def level (c : Clause) : Level := if c.isCompound then .disjunction else .negation

theorem rank_level_le (c : Clause) : c.level.rank ≤ Level.disjunction.rank := by
  unfold level
  split <;> decide

theorem truths_eq_map (row : Record) (cs : List Clause) : truths row cs = cs.map (truth row) := by
  induction cs with
  | nil => rfl
  | cons c cs ih => rw [truths, ih, List.map_cons]

theorem AreReadable.of_forall {cs : List Clause} (h : ∀ c ∈ cs, c.IsReadable) : AreReadable cs := by
  induction cs with
  | nil => trivial
  | cons c cs ih =>
    exact ⟨h c List.mem_cons_self, ih fun d hd => h d (List.mem_cons_of_mem c hd)⟩

theorem says_compare {column : String} {op : Operator} {value : Value}
    (hr : IsColumnName column) (h : compileCompare column op value = .ok s) :
    s.Says .test fun row => (compare column op value).truth row := by
  obtain ⟨rfl, rfl, rfl⟩ | ⟨rfl, rfl, rfl⟩ | ⟨hv, rfl⟩ := compileCompare_ok h
  · exact Says.isNull hr
  · exact Says.isNotNull hr
  · have ht : ∀ row, (compare column op value).truth row =
        op.compares (row.column (columnPath column)) (none, value) := by
      intro row
      rw [truth]
      · rintro rfl rfl
        exact hv rfl
      · rintro rfl rfl
        exact hv rfl
    simp only [ht]
    exact Says.compare hr op value

theorem says_between {column : String} {low high : Value} {negated : Bool}
    (hr : IsColumnName column) (h : compileBetween column low high negated = .ok s) :
    s.Says .negation fun row => (between column low high negated).truth row := by
  have hs := compileBetween_ok h
  have hb := Says.between hr low high
  cases negated
  · exact hs ▸ hb.of_le (by decide)
  · exact hs ▸ ((hb.of_le (by decide)).parens.of_le (by decide)).not

/-- Members that hold together at the level of a negation say together what
their connective makes of them. -/
theorem says_join (k : Connective) {parts : List Sql} {c : Clause} {cs : List Clause}
    (h : List.Forall₂ (fun s c => s.Says .negation fun row => c.truth row) parts (c :: cs)) :
    (join (" " ++ k.sql ++ " ") parts).Says k.op.level
      fun row => k.together (truths row (c :: cs)) := by
  rcases h with _ | ⟨hc, hcs⟩
  rename_i a rest
  have hs : List.Forall₂ (fun s u => s.Says k.op.level.tighter u) rest
      (cs.map fun c row => c.truth row) := by
    rw [List.forall₂_map_right_iff]
    exact hcs.imp fun _ _ h => h.of_le (by cases k <;> decide)
  have hj := Says.join k (hc.of_le (by cases k <;> decide)) hs
  simp only [List.map_map, Function.comp_def] at hj
  simp only [truths_eq_map, List.map_cons]
  exact hj

mutual

/-- **A compiled clause says what the clause says**, by induction on the
clause: at the level of a negation unless it is put in parentheses inside a
group. -/
theorem says_of_compile : ∀ {c : Clause} {s : Sql}, c.IsReadable → c.compile = .ok s →
    s.Says c.level fun row => c.truth row
  | compare column op value, s, hr, h =>
    (says_compare hr h).of_le (show Level.test.rank ≤ Level.negation.rank by decide)
  | isIn column values, s, hr, h => by
    obtain ⟨v, vs, rfl, rfl⟩ := compileIn_ok h
    exact (Says.isIn hr v vs).of_le (show Level.test.rank ≤ Level.negation.rank by decide)
  | between column low high negated, s, hr, h => says_between hr h
  | columns left right, s, hr, h => by
    obtain rfl := compileColumns_ok h
    exact (Says.columns hr.1 hr.2).of_le (show Level.test.rank ≤ Level.negation.rank by decide)
  | .not c, s, hr, h => by
    obtain ⟨a, ha, rfl⟩ := compile_not_ok h
    have hc : a.Says c.level fun row => c.truth row := says_of_compile hr ha
    exact ((hc.of_le c.rank_level_le).parens.of_le (by decide)).not
  | group k [], s, hr, h => nomatch h
  | group k [only], s, hr, h => by
    have hc : s.Says only.level fun row => only.truth row := says_of_compile hr.1 h
    have ht : ∀ row, (group k [only]).truth row = only.truth row := by
      intro row
      rw [truth, truths, truths, Connective.together_singleton]
    simp only [ht]
    exact hc
  | group k (c :: d :: rest), s, hr, h => by
    obtain ⟨parts, hp, rfl⟩ := compile_group_ok h
    have hlevel : (group k (c :: d :: rest)).level = .disjunction := rfl
    rw [hlevel]
    exact (says_join k (says_of_compileMembers hr hp)).of_le (by cases k <;> decide)
  | .raw sql args, s, ⟨e, he, hh⟩, h => by
    obtain rfl := Except.ok.inj h
    exact Says.raw he hh

/-- The members of a group hold together at the level of a negation. -/
theorem says_of_compileMembers : ∀ {cs : List Clause} {parts : List Sql}, AreReadable cs →
    compileMembers cs = .ok parts →
    List.Forall₂ (fun s c => s.Says .negation fun row => c.truth row) parts cs
  | [], parts, _, h => by
    obtain rfl := Except.ok.inj h
    exact .nil
  | c :: cs, parts, hr, h => by
    obtain ⟨a, rest, ha, hrest, rfl⟩ := compileMembers_cons_ok h
    have hc := says_of_compile hr.1 ha
    refine .cons ?_ (says_of_compileMembers hr.2 hrest)
    by_cases hcomp : c.isCompound
    · rw [level, if_pos hcomp] at hc
      rw [if_pos hcomp]
      exact hc.parens.of_le (by decide)
    · rw [level, if_neg hcomp] at hc
      rw [if_neg hcomp]
      exact hc

end

/-- **Compiling keeps the meaning.** The SQL of a clause reads as one
condition, which with the arguments in its holes is as true as the clause on
every row; that of several clauses reads as their conjunction. No clause at
all gives no SQL. -/
theorem compile_keeps_meaning :
    (∀ (c : Clause) (s : Sql), c.IsReadable → c.compile = .ok s →
      s.Reads fun row => c.truth row) ∧
    ∀ (cs : List Clause) (s : Sql), (∀ c ∈ cs, c.IsReadable) → compileAll cs = .ok s →
      (cs = [] → s = Sql.empty) ∧
      (cs ≠ [] → s.Reads fun row => Truth.allOf (cs.map fun c => c.truth row)) := by
  have hone : ∀ (c : Clause) (s : Sql), c.IsReadable → c.compile = .ok s →
      s.Reads fun row => c.truth row :=
    fun c s hr h => ((says_of_compile hr h).of_le c.rank_level_le).reads
  refine ⟨hone, fun cs s hr h => ?_⟩
  rcases cs with _ | ⟨c, _ | ⟨d, rest⟩⟩
  · exact ⟨fun _ => (Except.ok.inj h).symm, fun hne => absurd rfl hne⟩
  · refine ⟨nofun, fun _ => ?_⟩
    have ht : ∀ row, Truth.allOf ([c].map fun c => c.truth row) = c.truth row :=
      fun row => Truth.and_true (c.truth row)
    simp only [ht]
    exact hone c s (hr c List.mem_cons_self) h
  · refine ⟨nofun, fun _ => ?_⟩
    obtain ⟨parts, hp, rfl⟩ := map_eq_ok.1 h
    have hj := says_join .and (says_of_compileMembers (AreReadable.of_forall hr) hp)
    simp only [truths_eq_map] at hj
    exact (hj.of_le (by decide)).reads

/-- Raw text that hides an `OR`, as a member of a conjunction inside a
disjunction, beside a range and a list that are negated. -/
def mixed : Clause :=
  .group .or [.between "age" (.integer 18) (.integer 65) true,
    .group .and [.raw "score > ? OR banned" [.integer 7],
      .not (.isIn "users.role" [.text "guest", .text "bot"])],
    .compare "deleted" .equal .null]

theorem mixed_isReadable : mixed.IsReadable := by
  have hscore : Lexed "score".toList [.name "score"] := Lexed.column (by decide +kernel)
  have hbanned : Lexed "banned".toList [.name "banned"] := Lexed.column (by decide +kernel)
  have hlex := (((hbanned.after (Connective.lexed .or)).after Lexed.hole).after
    (Lexed.operator .greater)).after hscore
  have hless := @Derives.compare .greater _ _ _ _ (Says.derives_column "score") Says.derives_hole
  have hor := @Derives.binary .or _ _ _ _ (hless.of_le (by decide))
    ((Says.derives_column "banned").of_le (by decide))
  have hage : IsColumnName "age" := by decide +kernel
  have hrole : IsColumnName "users.role" := by decide +kernel
  have hdeleted : IsColumnName "deleted" := by decide +kernel
  exact ⟨hage, ⟨⟨_, ⟨_, hlex, hor⟩, rfl⟩, hrole, trivial⟩, hdeleted, trivial⟩

theorem compile_keeps_meaning_mixed :
    mixed.compile = .ok
      ⟨"NOT (age BETWEEN ? AND ?) OR ((score > ? OR banned) AND NOT (users.role IN (?, ?))) OR " ++
          "deleted IS NULL",
        [.integer 18, .integer 65, .integer 7, .text "guest", .text "bot"]⟩ ∧
    ∀ s, mixed.compile = .ok s → s.Reads fun row => mixed.truth row :=
  ⟨by decide +kernel, fun s h => compile_keeps_meaning.1 mixed s mixed_isReadable h⟩

end Clause

end TypedTables

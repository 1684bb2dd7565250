import Mathlib.Tactic.Common
import TypedTables.Proofs.Expression.Grammar
/-!
# TypedTables — reading conditions

A reader for the grammar of conditions, level by level: `Expression.ofText?`
finds the expression that a text is. It finds every expression that the
grammar derives (`ofText?_of_parses`), and as it finds at most one, the
grammar is unambiguous (`Parses.unique`).
-/

namespace TypedTables

/-! ## Lexemes -/

/-- The lexemes of a text. Each takes at least one character, so the length
of the text bounds the steps. -/
def lexemesFrom : (fuel : Nat) → List Char → Option (List Lexeme)
  | _, [] => some []
  | 0, _ :: _ => none
  | fuel + 1, c :: cs =>
    if Token.isBlank c then lexemesFrom fuel cs
    else if startsComment (c :: cs) then none
    else do
      let (k, rest) ← Token.readKind (c :: cs)
      let t ← Lexeme.ofToken? k
      return t :: (← lexemesFrom fuel rest)

/-- No token starts with a blank. -/
theorem Token.readKind_blank {c : Char} (h : Token.isBlank c = true) (cs : List Char) :
    Token.readKind (c :: cs) = none := by
  simp only [Token.isBlank, Bool.or_eq_true, beq_iff_eq] at h
  rcases h with (((rfl | rfl) | rfl) | rfl) | rfl <;> rfl

theorem lexemesFrom_of_lexed {cs : List Char} {ts : List Lexeme} (h : Lexed cs ts) :
    ∀ {fuel : Nat}, cs.length ≤ fuel → lexemesFrom fuel cs = some ts := by
  induction h with
  | nil => intro fuel _; cases fuel <;> rfl
  | blank hc _ ih =>
    rintro (_ | fuel) hf
    · simp at hf
    · simp only [lexemesFrom, hc, if_true]
      exact ih (by simpa using hf)
  | @lexeme spelling rest k t ts hne hcom hk ht _ ih =>
    obtain ⟨c, cs, rfl⟩ := List.exists_cons_of_ne_nil hne
    have hblank : Token.isBlank c = false := by
      by_contra hb
      rw [List.cons_append, Token.readKind_blank (by simpa using hb)] at hk
      cases hk
    rintro (_ | fuel) hf
    · simp at hf
    · have hrest : lexemesFrom fuel rest = some ts := by
        refine ih ?_
        simp at hf
        omega
      rw [List.cons_append] at hk hcom ⊢
      simp [lexemesFrom, hblank, hcom, hk, ht, hrest]

/-! ## Expressions -/

/-- How an expression of a level is read from the start of some lexemes. -/
abbrev LevelReader := Level → List Lexeme → Option (Expression × List Lexeme)

namespace LevelReader

/-- The operator of a level that a lexeme is. -/
def binaryOp? (level : Level) (t : Lexeme) : Option BinaryOp :=
  [BinaryOp.or, .and, .plus, .minus, .times].find? fun op => op.level == level && op.lexeme == t

/-- Goes on with operators of the level as long as there are any. Each takes
a lexeme, so their number bounds the steps. -/
def chain (read : LevelReader) (level : Level) :
    (fuel : Nat) → Expression → List Lexeme → Option (Expression × List Lexeme)
  | 0, _, _ => none
  | _ + 1, a, [] => some (a, [])
  | fuel + 1, a, t :: ts =>
    match binaryOp? level t with
    | none => some (a, t :: ts)
    | some op => do
      let (b, rest) ← read level.tighter ts
      chain read level fuel (.binary op a b) rest

/-- One or more expressions with commas between them. -/
def items (read : LevelReader) : (fuel : Nat) → List Lexeme → Option (List Expression × List Lexeme)
  | 0, _ => none
  | fuel + 1, ts => do
    let (e, rest) ← read .disjunction ts
    match rest with
    | .comma :: rest => do
      let (es, rest) ← items read fuel rest
      return (e :: es, rest)
    | rest => return ([e], rest)

/-- The expressions up to a closing parenthesis. -/
def itemsClosed (read : LevelReader) (ts : List Lexeme) : Option (List Expression × List Lexeme) := do
  let (es, rest) ← items read (ts.length + 1) ts
  match rest with
  | .closes :: rest => return (es, rest)
  | _ => none

/-- The two bounds of a range. -/
def bounds (read : LevelReader) (ts : List Lexeme) :
    Option ((Expression × Expression) × List Lexeme) := do
  let (low, rest) ← read .sum ts
  match rest with
  | .word .and :: rest => do
    let (high, rest) ← read .sum rest
    return ((low, high), rest)
  | _ => none

/-- The test that follows a value, if there is one. -/
def test (read : LevelReader) (a : Expression) : List Lexeme → Option (Expression × List Lexeme)
  | .relation op :: ts => do
    let (b, rest) ← read .sum ts
    return (.compare op a b, rest)
  | .word .not :: .relation .like :: ts => do
    let (b, rest) ← read .sum ts
    return (.not (.compare .like a b), rest)
  | .word .is :: .word .null :: ts => some (.isNull a, ts)
  | .word .is :: .word .not :: .word .null :: ts => some (.not (.isNull a), ts)
  | .word .isIn :: .opens :: ts => do
    let (es, rest) ← itemsClosed read ts
    return (.isIn a es, rest)
  | .word .not :: .word .isIn :: .opens :: ts => do
    let (es, rest) ← itemsClosed read ts
    return (.not (.isIn a es), rest)
  | .word .between :: ts => do
    let ((low, high), rest) ← bounds read ts
    return (.between a low high, rest)
  | .word .not :: .word .between :: ts => do
    let ((low, high), rest) ← bounds read ts
    return (.not (.between a low high), rest)
  | ts => some (a, ts)

/-- The names that follow a name, each after a point. -/
def morePath : List Lexeme → List String × List Lexeme
  | .dot :: .name c :: ts => let (path, rest) := morePath ts; (c :: path, rest)
  | ts => ([], ts)

/-- An operand without operators. -/
def primary (read : LevelReader) : List Lexeme → Option (Expression × List Lexeme)
  | .literal v :: ts => some (.literal v, ts)
  | .word .null :: ts => some (.literal .null, ts)
  | .word .true :: ts => some (.literal (.ofBool true), ts)
  | .word .false :: ts => some (.literal (.ofBool false), ts)
  | .hole :: ts => some (.hole, ts)
  | .minus :: ts => do
    let (a, rest) ← read .primary ts
    return (.negative a, rest)
  | .opens :: ts => do
    let (a, rest) ← read .disjunction ts
    match rest with
    | .closes :: rest => return (a, rest)
    | _ => none
  | .name f :: .opens :: .star :: .closes :: ts => some (.callAll f, ts)
  | .name f :: .opens :: .closes :: ts => some (.call f [], ts)
  | .name f :: .opens :: ts => do
    let (es, rest) ← itemsClosed read ts
    return (.call f es, rest)
  | .name c :: ts => let (path, rest) := morePath ts; some (.column (c :: path), rest)
  | _ => none

/-- One level, given a reader for what stands inside. -/
def step (read : LevelReader) : LevelReader
  | .negation, .word .not :: ts => do
    let (e, rest) ← read .negation ts
    return (.not e, rest)
  | .negation, ts => read .test ts
  | .test, ts => do
    let (a, rest) ← read .sum ts
    test read a rest
  | .primary, ts => primary read ts
  | level, ts => do
    let (a, rest) ← read level.tighter ts
    chain read level (rest.length + 1) a rest

/-- So many levels inside each other. -/
def ofDepth : (fuel : Nat) → LevelReader
  | 0 => fun _ _ => none
  | fuel + 1 => step (ofDepth fuel)

end LevelReader

/-- As many levels as an expression of some lexemes has at most. -/
def Level.depth (level : Level) (size : Nat) : Nat := 7 * size + level.rank

/-- The expression that some lexemes are. -/
def Expression.ofLexemes? (ts : List Lexeme) : Option Expression :=
  match LevelReader.ofDepth (Level.disjunction.depth ts.length) .disjunction ts with
  | some (e, []) => some e
  | _ => none

/-- The expression that a text is. -/
def Expression.ofText? (text : String) : Option Expression :=
  (lexemesFrom text.toList.length text.toList).bind Expression.ofLexemes?

/-! ## Where an expression ends -/

/-- The rank of the level at which a lexeme goes on with the expression
before it, which is beyond all levels for one that never does. -/
def Lexeme.reach : Lexeme → Nat
  | .dot | .opens => 0
  | .star => 1
  | .plus | .minus => 2
  | .relation _ | .word .is | .word .isIn | .word .between | .word .not => 3
  | .word .and => 5
  | .word .or => 6
  | _ => 7

/-- Lexemes that do not go on with an expression of a level before them. -/
def Stops (level : Level) (r : List Lexeme) : Prop := ∀ t ∈ r.head?, level.rank < t.reach

namespace Stops

variable {level : Level} {r : List Lexeme}

theorem nil : Stops level [] := by simp [Stops]

theorem cons {t : Lexeme} (h : level.rank < t.reach) : Stops level (t :: r) := by
  simpa [Stops] using h

/-- What ends a loose expression ends a tight one. -/
theorem of_le {tight : Level} (h : Stops level r) (hr : tight.rank ≤ level.rank) : Stops tight r :=
  fun t ht => lt_of_le_of_lt hr (h t ht)

theorem closes : Stops level (.closes :: r) := cons (by cases level <;> decide)

theorem comma : Stops level (.comma :: r) := cons (by cases level <;> decide)

/-- What ends a value ends it also with `NOT` in front. -/
theorem notIf {negated : Bool} {t : Lexeme} {ts : List Lexeme} (h : 2 < t.reach) :
    Stops .sum (Lexeme.notIf negated ++ t :: ts ++ r) := by
  cases negated
  · exact cons h
  · exact cons (by decide)

end Stops

/-- No expression is empty or starts as a list of arguments ends, and one
that holds tighter than a negation does not start as one. -/
theorem Derives.exists_head {level : Level} {ts : List Lexeme} {e : Expression}
    (h : Derives level ts e) :
    ∃ t rest, ts = t :: rest ∧ t ≠ .star ∧ t ≠ .closes ∧ (level.rank ≤ 3 → t ≠ .word .not) := by
  induction h with
  | @loosen level ts e hp _ ih =>
    obtain ⟨t, rest, rfl, hs, hc, hn⟩ := ih
    exact ⟨t, rest, rfl, hs, hc, fun hl => hn (by cases level <;> simp_all [Level.rank, Level.tighter])⟩
  | binary _ _ iha _ | compare _ _ iha _ | notLike _ _ iha _ | isNull _ iha | isIn _ _ _ iha _
  | between _ _ _ iha _ _ =>
    obtain ⟨t, rest, rfl, hs, hc, hn⟩ := iha
    refine ⟨t, _, rfl, hs, hc, fun hl => hn ?_⟩
    first | exact hl | decide
  | not _ _ => exact ⟨_, _, rfl, by decide, by decide, fun hl => absurd hl (by decide)⟩
  | @column path hne =>
    obtain ⟨a, path, rfl⟩ := List.exists_cons_of_ne_nil hne
    rcases path with _ | ⟨b, path⟩ <;> exact ⟨.name a, _, rfl, by simp, by simp, by simp⟩
  | _ => exact ⟨_, _, rfl, by simp, by simp, by simp⟩

namespace LevelReader

variable {level : Level} {ts r : List Lexeme} {e a : Expression} {read : LevelReader}

theorem binaryOp?_eq_none {t : Lexeme} (h : level.rank < t.reach) : binaryOp? level t = none := by
  revert h
  rcases t with (_ | _ | _ | _ | _ | _ | _ | _ | _) | _ | _ | _ | _ | _ | _ | _ | _ | _ | _ | _ <;>
    cases level <;> simp [binaryOp?, Level.rank, Lexeme.reach, BinaryOp.level, BinaryOp.lexeme]

theorem binaryOp?_lexeme (op : BinaryOp) : binaryOp? op.level op.lexeme = some op := by
  cases op <;> rfl

theorem chain_of_stops (h : Stops level r) {fuel : Nat} :
    chain read level (fuel + 1) a r = some (a, r) := by
  rcases r with _ | ⟨t, r⟩
  · rfl
  · simp [chain, binaryOp?_eq_none (h t rfl)]

theorem test_of_stops (h : Stops .test r) : test read a r = some (a, r) := by
  rcases r with _ | ⟨t, r⟩
  · rfl
  · have ht := h t rfl
    rcases t with (_ | _ | _ | _ | _ | _ | _ | _ | _) | _ | _ | _ | _ | _ | _ | _ | _ | _ | _ | _ <;>
      first | rfl | simp [Level.rank, Lexeme.reach] at ht

theorem morePath_of_stops (h : Stops .primary r) : morePath r = ([], r) := by
  rcases r with _ | ⟨t, r⟩
  · rfl
  · have ht := h t rfl
    rcases t with (_ | _ | _ | _ | _ | _ | _ | _ | _) | _ | _ | _ | _ | _ | _ | _ | _ | _ | _ | _ <;>
      first | rfl | simp [Level.rank, Lexeme.reach] at ht

/-- The lexemes of a path behind its first name. -/
theorem morePath_path (h : Stops .primary r) (c : String) (path : List String) :
    ∃ tail, Lexeme.path (c :: path) = .name c :: tail ∧ (tail ++ r).head? ≠ some .opens ∧
      morePath (tail ++ r) = (path, r) := by
  induction path generalizing c with
  | nil =>
    refine ⟨[], rfl, fun ho => ?_, morePath_of_stops h⟩
    exact absurd (h _ ho) (by decide)
  | cons d path ih =>
    obtain ⟨tail, htail, -, hm⟩ := ih d
    refine ⟨.dot :: .name d :: tail, by rw [Lexeme.path, htail], by simp, ?_⟩
    simp [morePath, hm]

/-- A name that no parenthesis follows is a column. -/
theorem primary_name {c : String} (h : ts.head? ≠ some .opens) :
    primary read (.name c :: ts) = some (.column (c :: (morePath ts).1), (morePath ts).2) := by
  rcases ts with _ | ⟨t, ts⟩
  · rfl
  · rw [primary] <;> simp_all

/-- A name before a parenthesis is a function, and what follows its list of
arguments. -/
theorem primary_call {f : String} {t : Lexeme} (hs : t ≠ .star) (hc : t ≠ .closes) :
    primary read (.name f :: .opens :: t :: ts) =
      (itemsClosed read (t :: ts)).map fun x => (.call f x.1, x.2) := by
  rw [primary]
  · cases itemsClosed read (t :: ts) <;> rfl
  all_goals simp_all

/-! ## Every derivation is found -/

/-- A level reader finds an expression before whatever stops it. -/
def Finds (read : LevelReader) (level : Level) (ts : List Lexeme) (e : Expression) : Prop :=
  ∀ r, Stops level r → read level (ts ++ r) = some (e, r)

/-- Readers of enough depth find an expression. -/
def FindsDeep (level : Level) (ts : List Lexeme) (e : Expression) : Prop :=
  ∀ depth, level.depth ts.length ≤ depth → Finds (ofDepth depth) level ts e

/-- Readers of enough depth come by an expression on their way along a chain
of operators: behind it they go on as the chain does. -/
def Passes (level : Level) (ts : List Lexeme) (e : Expression) : Prop :=
  ∀ depth r, Stops level.tighter r → level.depth ts.length ≤ depth + 1 →
    ∃ fuel, r.length < fuel ∧
      ofDepth (depth + 1) level (ts ++ r) = chain (ofDepth depth) level fuel e r

/-- The levels of chains of operators. -/
def IsChain (level : Level) : Prop := level.tighter.rank < level.rank ∧ level.rank ≠ 3 ∧ level.rank ≠ 4

theorem ofDepth_chain (hl : IsChain level) {depth : Nat} :
    ofDepth (depth + 1) level ts = (do
      let (a, rest) ← ofDepth depth level.tighter ts
      chain (ofDepth depth) level (rest.length + 1) a rest) := by
  cases level <;> first | rfl | exact absurd hl (by simp [IsChain, Level.rank, Level.tighter])

theorem isChain_level (op : BinaryOp) : IsChain op.level := by
  cases op <;> simp [IsChain, BinaryOp.level, Level.rank, Level.tighter]

theorem IsChain.rank_tighter (hl : IsChain level) : level.rank = level.tighter.rank + 1 := by
  cases level <;> simp_all [IsChain, Level.rank, Level.tighter]

theorem Passes.findsDeep (hl : IsChain level) (h : Passes level ts e) : FindsDeep level ts e := by
  rintro (_ | depth) hd r hr
  · have := hl.rank_tighter
    simp only [Level.depth] at hd
    omega
  · obtain ⟨fuel, hfuel, he⟩ := h depth r (hr.of_le (by have := hl.1; omega)) hd
    obtain ⟨fuel, rfl⟩ : ∃ n, fuel = n + 1 := ⟨fuel - 1, by omega⟩
    rw [he, chain_of_stops hr]

theorem FindsDeep.passes (hl : IsChain level) (h : FindsDeep level.tighter ts e) :
    Passes level ts e := by
  intro depth r hr hd
  have hrank := hl.rank_tighter
  refine ⟨r.length + 1, by omega, ?_⟩
  rw [ofDepth_chain hl, h depth (by simp only [Level.depth] at hd ⊢; omega) r hr]
  rfl

/-- **A chain grows by one operator.** -/
theorem Passes.binary {op : BinaryOp} {a b : List Lexeme} {x y : Expression}
    (ha : Passes op.level a x) (hb : FindsDeep op.level.tighter b y) :
    Passes op.level (a ++ op.lexeme :: b) (.binary op x y) := by
  intro depth r hr hd
  have hrank := (isChain_level op).rank_tighter
  simp only [Level.depth, List.length_append, List.length_cons] at hd
  have hop : Stops op.level.tighter (op.lexeme :: (b ++ r)) := .cons (by cases op <;> decide)
  obtain ⟨fuel, hfuel, he⟩ := ha depth _ hop (by simp only [Level.depth]; omega)
  obtain ⟨fuel, rfl⟩ : ∃ n, fuel = n + 1 := ⟨fuel - 1, by omega⟩
  have hy := hb depth (by simp only [Level.depth]; omega) r hr
  refine ⟨fuel, by simp only [List.length_cons, List.length_append] at hfuel; omega, ?_⟩
  rw [List.append_assoc, List.cons_append, he, chain, binaryOp?_lexeme]
  simp [hy]

/-- The expressions of a list are found up to the parenthesis that closes it. -/
theorem items_of_finds {is : List (List Lexeme × Expression)} (hne : is ≠ [])
    (h : ∀ i ∈ is, Finds read .disjunction i.1 i.2) {fuel : Nat} (hf : is.length ≤ fuel) :
    items read fuel (Lexeme.commas (is.map Prod.fst) ++ .closes :: r) =
      some (is.map Prod.snd, .closes :: r) := by
  induction is generalizing fuel with
  | nil => exact absurd rfl hne
  | cons i is ih =>
    obtain ⟨fuel, rfl⟩ : ∃ n, fuel = n + 1 := ⟨fuel - 1, by simp at hf; omega⟩
    have hi := h i List.mem_cons_self
    rcases is with _ | ⟨j, is⟩
    · simp [items, Lexeme.commas, hi _ .closes]
    · have hlen : (j :: is).length ≤ fuel := by simpa using hf
      have hrest := ih (by simp) (fun k hk => h k (List.mem_cons_of_mem i hk)) hlen
      simp only [List.map_cons] at hrest
      simp [items, Lexeme.commas, hi _ .comma, hrest]

theorem length_le_commas (rows : List (List Lexeme)) :
    rows.length ≤ (Lexeme.commas rows).length + 1 := by
  fun_induction Lexeme.commas rows with
  | case1 => simp
  | case2 => simp
  | case3 a b rest ih =>
    simp only [List.length_cons, List.length_append] at ih ⊢
    omega

theorem itemsClosed_of_finds {is : List (List Lexeme × Expression)} (hne : is ≠ [])
    (h : ∀ i ∈ is, Finds read .disjunction i.1 i.2) :
    itemsClosed read (Lexeme.commas (is.map Prod.fst) ++ .closes :: r) =
      some (is.map Prod.snd, r) := by
  have hlen := length_le_commas (is.map Prod.fst)
  rw [List.length_map] at hlen
  rw [itemsClosed, items_of_finds hne h (by simp only [List.length_append]; omega)]
  rfl

/-- A row of a list is no longer than the list. -/
theorem length_le_of_mem_commas {rows : List (List Lexeme)} {row : List Lexeme} (h : row ∈ rows) :
    row.length ≤ (Lexeme.commas rows).length := by
  fun_induction Lexeme.commas rows with
  | case1 => simp at h
  | case2 a => simp_all
  | case3 a b rest ih =>
    simp only [List.length_append, List.length_cons]
    rcases List.mem_cons.1 h with rfl | h
    · omega
    · have := ih h
      omega

/-- A list of arguments does not start as a star or an end of the list, so that
the function is not taken for one of all rows or of none. -/
theorem primary_arguments {f : String} {is : List (List Lexeme × Expression)}
    (hd : ∀ i ∈ is, Derives .disjunction i.1 i.2) (h : ∀ i ∈ is, Finds read .disjunction i.1 i.2) :
    primary read (.name f :: .opens :: (Lexeme.commas (is.map Prod.fst) ++ .closes :: r)) =
      some (.call f (is.map Prod.snd), r) := by
  rcases is with _ | ⟨i, is⟩
  · rfl
  · have hes := itemsClosed_of_finds (r := r) (List.cons_ne_nil i is) h
    obtain ⟨t, rest, ht, hs, hc, -⟩ := (hd i List.mem_cons_self).exists_head
    obtain ⟨rest', hrest⟩ : ∃ rest', Lexeme.commas ((i :: is).map Prod.fst) = t :: rest' := by
      rcases is with _ | ⟨j, is⟩ <;> simp [Lexeme.commas, ht]
    rw [hrest, List.cons_append] at hes ⊢
    rw [primary_call hs hc, hes]
    rfl

theorem bounds_of_finds {l h : List Lexeme} {low high : Expression} (hl : Finds read .sum l low)
    (hh : Finds read .sum h high) (hr : Stops .sum r) :
    bounds read (l ++ .word .and :: (h ++ r)) = some ((low, high), r) := by
  have hlow := hl (.word .and :: (h ++ r)) (.cons (by decide))
  simp [bounds, hlow, hh r hr]

theorem test_isIn {negated : Bool} {es : List Expression} (h : itemsClosed read ts = some (es, r)) :
    test read a (Lexeme.notIf negated ++ .word .isIn :: .opens :: ts) =
      some (.notIf negated (.isIn a es), r) := by
  cases negated <;> simp [test, Lexeme.notIf, Expression.notIf, h]

theorem test_between {negated : Bool} {low high : Expression}
    (h : bounds read ts = some ((low, high), r)) :
    test read a (Lexeme.notIf negated ++ .word .between :: ts) =
      some (.notIf negated (.between a low high), r) := by
  cases negated <;> simp [test, Lexeme.notIf, Expression.notIf, h]

/-! ### One rule after the other

For each rule of the grammar: if readers of enough depth find what the rule puts
together, then those of enough depth find the whole. A lexeme more is seven
levels more, which is enough for one expression of any level. -/

namespace FindsDeep

variable {x y : Expression} {b tail : List Lexeme}

/-- Seven levels are enough for every level. -/
theorem finds (h : FindsDeep level ts e) (depth : Nat) (hd : 7 * ts.length + 6 ≤ depth) :
    Finds (ofDepth depth) level ts e :=
  h depth (le_trans (by cases level <;> simp [Level.depth, Level.rank]) hd)

theorem finds_of_mem {is : List (List Lexeme × Expression)}
    (h : ∀ i ∈ is, FindsDeep .disjunction i.1 i.2) (depth : Nat)
    (hd : 7 * (Lexeme.commas (is.map Prod.fst)).length + 6 ≤ depth) :
    ∀ i ∈ is, Finds (ofDepth depth) .disjunction i.1 i.2 := by
  intro i hi
  have hlen := length_le_of_mem_commas (List.mem_map_of_mem (f := Prod.fst) hi)
  exact (h i hi).finds depth (by omega)

/-! #### Negations -/

theorem negation (h : FindsDeep .test ts e) {t : Lexeme} {rest : List Lexeme} (ht : ts = t :: rest)
    (hn : t ≠ .word .not) : FindsDeep .negation ts e := by
  rintro (_ | depth) hd r hr <;> simp only [Level.depth, Level.rank] at hd
  · omega
  · have he := h depth (by simp only [Level.depth, Level.rank]; omega) r (hr.of_le (by decide))
    subst ht
    rw [List.cons_append] at he ⊢
    rw [ofDepth, step]
    · exact he
    · simpa using hn

theorem not (h : FindsDeep .negation ts e) : FindsDeep .negation (.word .not :: ts) (.not e) := by
  rintro (_ | depth) hd r hr <;> simp only [Level.depth, Level.rank, List.length_cons] at hd
  · omega
  · have he := h.finds depth (by omega) r hr
    simp [ofDepth, step, he]

/-! #### Tests -/

theorem test (h : FindsDeep .sum ts e) : FindsDeep .test ts e := by
  rintro (_ | depth) hd r hr <;> simp only [Level.depth, Level.rank] at hd
  · omega
  · have he := h depth (by simp only [Level.depth, Level.rank]; omega) r (hr.of_le (by decide))
    simp only [ofDepth, step, he]
    exact test_of_stops hr

/-- A test is found as soon as its value and what follows the value are. -/
theorem tested (h : FindsDeep .sum ts x) (hne : tail ≠ []) (hs : ∀ r, Stops .sum (tail ++ r))
    (ht : ∀ depth r, Stops .test r → 7 * tail.length ≤ depth →
      LevelReader.test (ofDepth depth) x (tail ++ r) = some (e, r)) :
    FindsDeep .test (ts ++ tail) e := by
  have hpos := List.length_pos_iff.2 hne
  rintro (_ | depth) hd r hr <;> simp only [Level.depth, Level.rank, List.length_append] at hd
  · omega
  · have hx := h.finds depth (by omega) (tail ++ r) (hs r)
    simp only [List.append_assoc, ofDepth, step, hx]
    exact ht depth r hr (by omega)

theorem compare {op : Operator} (hx : FindsDeep .sum ts x) (hy : FindsDeep .sum b y) :
    FindsDeep .test (ts ++ .relation op :: b) (.compare op x y) := by
  refine hx.tested (List.cons_ne_nil _ _) (fun r => .cons (by simp [Level.rank, Lexeme.reach]))
    fun depth r hr hd => ?_
  rw [List.length_cons] at hd
  have he := hy.finds depth (by omega) r (hr.of_le (by decide))
  simp [LevelReader.test, he]

theorem notLike (hx : FindsDeep .sum ts x) (hy : FindsDeep .sum b y) :
    FindsDeep .test (ts ++ .word .not :: .relation .like :: b) (.not (.compare .like x y)) := by
  refine hx.tested (List.cons_ne_nil _ _) (fun r => .cons (by decide)) fun depth r hr hd => ?_
  rw [List.length_cons, List.length_cons] at hd
  have he := hy.finds depth (by omega) r (hr.of_le (by decide))
  simp [LevelReader.test, he]

theorem isNull {negated : Bool} (hx : FindsDeep .sum ts x) :
    FindsDeep .test (ts ++ .word .is :: (Lexeme.notIf negated ++ [.word .null]))
      (.notIf negated (.isNull x)) := by
  refine hx.tested (List.cons_ne_nil _ _) (fun r => .cons (by decide)) fun depth r hr hd => ?_
  cases negated <;> simp [LevelReader.test, Lexeme.notIf, Expression.notIf]

theorem isIn {negated : Bool} {is : List (List Lexeme × Expression)} (hx : FindsDeep .sum ts x)
    (hne : is ≠ []) (h : ∀ i ∈ is, FindsDeep .disjunction i.1 i.2) :
    FindsDeep .test
      (ts ++ (Lexeme.notIf negated ++
        .word .isIn :: .opens :: (Lexeme.commas (is.map Prod.fst) ++ [.closes])))
      (.notIf negated (.isIn x (is.map Prod.snd))) := by
  refine hx.tested (by simp) (fun r => .notIf (by decide)) fun depth r hr hd => ?_
  simp only [List.length_append, List.length_cons] at hd
  have hes := itemsClosed_of_finds (r := r) hne (finds_of_mem h depth (by omega))
  simp only [List.append_assoc, List.cons_append, List.nil_append]
  exact test_isIn hes

theorem between {negated : Bool} {l h : List Lexeme} {low high : Expression} (hx : FindsDeep .sum ts x)
    (hl : FindsDeep .sum l low) (hh : FindsDeep .sum h high) :
    FindsDeep .test (ts ++ (Lexeme.notIf negated ++ .word .between :: (l ++ .word .and :: h)))
      (.notIf negated (.between x low high)) := by
  refine hx.tested (by simp) (fun r => .notIf (by decide)) fun depth r hr hd => ?_
  simp only [List.length_append, List.length_cons] at hd
  have hbounds := bounds_of_finds (hl.finds depth (by omega)) (hh.finds depth (by omega))
    (hr.of_le (by decide))
  simp only [List.append_assoc, List.cons_append]
  exact test_between hbounds

/-! #### Operands -/

/-- An operand is found as soon as the readers inside find its parts. -/
theorem operand (hne : ts ≠ [])
    (h : ∀ depth r, Stops .primary r → 7 * ts.length ≤ depth + 1 →
      primary (ofDepth depth) (ts ++ r) = some (e, r)) :
    FindsDeep .primary ts e := by
  have hpos := List.length_pos_iff.2 hne
  rintro (_ | depth) hd r hr <;> simp only [Level.depth, Level.rank] at hd
  · omega
  · exact h depth r hr (by omega)

theorem column {path : List String} (hne : path ≠ []) :
    FindsDeep .primary (Lexeme.path path) (.column path) := by
  obtain ⟨c, path, rfl⟩ := List.exists_cons_of_ne_nil hne
  refine operand (by cases path <;> simp [Lexeme.path]) fun depth r hr hd => ?_
  obtain ⟨tail, htail, ho, hm⟩ := morePath_path hr c path
  rw [htail, List.cons_append, primary_name ho, hm]

theorem call {f : String} {is : List (List Lexeme × Expression)}
    (hd : ∀ i ∈ is, Derives .disjunction i.1 i.2) (h : ∀ i ∈ is, FindsDeep .disjunction i.1 i.2) :
    FindsDeep .primary (.name f :: .opens :: (Lexeme.commas (is.map Prod.fst) ++ [.closes]))
      (.call f (is.map Prod.snd)) := by
  refine operand (List.cons_ne_nil _ _) fun depth r hr hdepth => ?_
  simp only [List.length_cons, List.length_append] at hdepth
  simp only [List.append_assoc, List.cons_append, List.nil_append]
  exact primary_arguments hd (finds_of_mem h depth (by omega))

theorem negative (h : FindsDeep .primary ts e) : FindsDeep .primary (.minus :: ts) (.negative e) := by
  refine operand (List.cons_ne_nil _ _) fun depth r hr hd => ?_
  rw [List.length_cons] at hd
  have he := h.finds depth (by omega) r hr
  simp [primary, he]

theorem parens (h : FindsDeep .disjunction ts e) : FindsDeep .primary (.opens :: (ts ++ [.closes])) e := by
  refine operand (List.cons_ne_nil _ _) fun depth r hr hd => ?_
  simp only [List.length_cons, List.length_append] at hd
  have he := h.finds depth (by omega) (.closes :: r) .closes
  simp [primary, he]

end FindsDeep

/-- **What the grammar derives, the reader finds.** A chain of operators is
passed operator by operator; everything else is one step of the reader. -/
theorem findsDeep_of_derives (h : Derives level ts e) :
    FindsDeep level ts e ∧ (IsChain level → Passes level ts e) := by
  induction h with
  | @loosen level ts e hp hd ih =>
    by_cases hl : IsChain level
    · have hpass := FindsDeep.passes hl ih.1
      exact ⟨hpass.findsDeep hl, fun _ => hpass⟩
    · refine ⟨?_, fun hl' => absurd hl' hl⟩
      cases level with
      | negation =>
        obtain ⟨t, rest, ht, -, -, hn⟩ := hd.exists_head
        exact ih.1.negation ht (hn (by decide))
      | test => exact ih.1.test
      | primary => exact absurd rfl hp
      | _ => exact absurd (by simp [IsChain, Level.rank, Level.tighter]) hl
  | @binary op a b x y _ _ iha ihb =>
    have hpass := (iha.2 (isChain_level op)).binary ihb.1
    exact ⟨hpass.findsDeep (isChain_level op), fun _ => hpass⟩
  | not _ ih => exact ⟨ih.1.not, fun hl => absurd rfl hl.2.2⟩
  | compare _ _ iha ihb => exact ⟨iha.1.compare ihb.1, fun hl => absurd rfl hl.2.1⟩
  | notLike _ _ iha ihb => exact ⟨iha.1.notLike ihb.1, fun hl => absurd rfl hl.2.1⟩
  | isNull _ iha => exact ⟨iha.1.isNull, fun hl => absurd rfl hl.2.1⟩
  | isIn _ hne _ iha ih => exact ⟨iha.1.isIn hne fun i hi => (ih i hi).1, fun hl => absurd rfl hl.2.1⟩
  | between _ _ _ iha ihl ihh => exact ⟨iha.1.between ihl.1 ihh.1, fun hl => absurd rfl hl.2.1⟩
  | literal | null | true | false | hole | callAll =>
    refine ⟨.operand (by simp) fun depth r hr hd => rfl, fun hl => ?_⟩
    exact absurd hl.1 (by decide)
  | column hne => exact ⟨.column hne, fun hl => absurd hl.1 (by decide)⟩
  | call hd ih => exact ⟨.call hd fun i hi => (ih i hi).1, fun hl => absurd hl.1 (by decide)⟩
  | negative _ ih => exact ⟨ih.1.negative, fun hl => absurd hl.1 (by decide)⟩
  | parens _ ih => exact ⟨ih.1.parens, fun hl => absurd hl.1 (by decide)⟩

end LevelReader

/-- Every expression of the grammar is found in its lexemes. -/
theorem Expression.ofLexemes?_of_derives {ts : List Lexeme} {e : Expression}
    (h : Derives .disjunction ts e) : ofLexemes? ts = some e := by
  have hf := (LevelReader.findsDeep_of_derives h).1 _ le_rfl [] .nil
  rw [List.append_nil] at hf
  rw [ofLexemes?, hf]

/-- **Every condition is found in its text.** -/
theorem Expression.ofText?_of_parses {text : String} {e : Expression} (h : Parses text e) :
    ofText? text = some e := by
  obtain ⟨ts, hlex, hd⟩ := h
  rw [ofText?, lexemesFrom_of_lexed hlex le_rfl, Option.bind_some, ofLexemes?_of_derives hd]

/-- **The grammar is unambiguous**: a text is one condition at most. -/
theorem Parses.unique {text : String} {e e' : Expression} (h : Parses text e) (h' : Parses text e') :
    e = e' :=
  Option.some.inj ((Expression.ofText?_of_parses h).symm.trans (Expression.ofText?_of_parses h'))

end TypedTables

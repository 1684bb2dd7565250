import TypedTables.Proofs.Expression.Truth
/-!
# TypedTables — values in the holes of conditions

The holes of an expression are the placeholders of its text, one by one and
from left to right: to put values into the expression is to put them into the
text (`Derives.bind`). So an expression takes as many values as its text has
placeholders, and leaves the values behind them alone.
-/

namespace TypedTables

/-! ## How many values an expression takes -/

namespace Expression

theorem take_and_drop {m n : Nat} {xs ys : List Value} (h : xs.take (m + n) = ys.take (m + n)) :
    xs.take m = ys.take m ∧ (xs.drop m).take n = (ys.drop m).take n := by
  constructor
  · have ht := congrArg (List.take m) h
    simpa [List.take_take] using ht
  · rw [List.take_drop, List.take_drop, h]

mutual

/-- Only as many values matter as an expression has holes. -/
theorem bind_congr {xs ys : List Value} : ∀ {e : Expression},
    xs.take e.holes = ys.take e.holes → e.bind xs = e.bind ys
  | literal _, _ | column _, _ | callAll _, _ => rfl
  | hole, h => by
    rcases xs with _ | ⟨x, xs⟩ <;> rcases ys with _ | ⟨y, ys⟩ <;> simp_all [holes, bind]
  | call f items, h => by
    rw [bind, bind, bindEach_congr h]
  | negative a, h | isNull a, h | not a, h => by
    rw [bind, bind, bind_congr (e := a) h]
  | binary op a b, h | compare op a b, h => by
    obtain ⟨ha, hb⟩ := take_and_drop h
    rw [bind, bind, bind_congr ha, bind_congr hb]
  | isIn a items, h => by
    obtain ⟨ha, hi⟩ := take_and_drop h
    rw [bind, bind, bind_congr ha, bindEach_congr hi]
  | between a low high, h => by
    obtain ⟨ha, hr⟩ := take_and_drop h
    obtain ⟨hl, hh⟩ := take_and_drop hr
    rw [List.drop_drop, List.drop_drop] at hh
    rw [bind, bind, bind_congr ha, bind_congr hl, bind_congr hh]

theorem bindEach_congr {xs ys : List Value} : ∀ {es : List Expression},
    xs.take (holesOf es) = ys.take (holesOf es) → bindEach xs es = bindEach ys es
  | [], _ => rfl
  | e :: es, h => by
    obtain ⟨he, hs⟩ := take_and_drop h
    rw [bindEach, bindEach, bind_congr he, bindEach_congr hs]

end

/-- Values behind those of an expression are not its own. -/
theorem bind_append {e : Expression} {xs : List Value} (h : e.holes = xs.length) (ys : List Value) :
    e.bind (xs ++ ys) = e.bind xs :=
  bind_congr (by simp [h])

end Expression

/-! ## Values in lexemes -/

namespace Lexeme

/-- The lexemes with values in place of the placeholders, from left to right. -/
def bindEach : List Value → List Lexeme → List Lexeme
  | _, [] => []
  | args, .hole :: ts => .literal (args.headD .null) :: bindEach args.tail ts
  | args, t :: ts => t :: bindEach args ts

variable {args : List Value} {t : Lexeme} {ts us : List Lexeme}

theorem bindEach_cons (h : t ≠ .hole) : bindEach args (t :: ts) = t :: bindEach args ts := by
  cases t <;> first | rfl | exact absurd rfl h

theorem bindEach_append :
    bindEach args (ts ++ us) = bindEach args ts ++ bindEach (args.drop (ts.count .hole)) us := by
  induction ts generalizing args with
  | nil => rfl
  | cons t ts ih =>
    by_cases ht : t = .hole
    · subst ht
      rw [List.cons_append, bindEach, bindEach, ih, List.count_cons_self, List.cons_append,
        List.drop_tail]
    · rw [List.cons_append, bindEach_cons ht, bindEach_cons ht, ih, List.count_cons_of_ne ht,
        List.cons_append]

theorem bindEach_path (path : List String) : bindEach args (Lexeme.path path) = Lexeme.path path := by
  fun_induction Lexeme.path path with
  | case1 => rfl
  | case2 => rfl
  | case3 a b rest ih => rw [bindEach_cons (by simp), bindEach_cons (by simp), ih]

theorem count_hole_path (path : List String) : (Lexeme.path path).count .hole = 0 := by
  fun_induction Lexeme.path path with
  | case1 => rfl
  | case2 => rfl
  | case3 a b rest ih => rw [List.count_cons_of_ne (by simp), List.count_cons_of_ne (by simp), ih]

theorem bindEach_notIf (negated : Bool) :
    bindEach args (notIf negated ++ ts) = notIf negated ++ bindEach args ts := by
  cases negated <;> rfl

theorem count_hole_notIf (negated : Bool) : (notIf negated ++ ts).count .hole = ts.count .hole := by
  cases negated <;> rfl

/-- What stands between two rows of lexemes takes no value, and the second row
takes the values that the first one left. -/
theorem bindEach_between (h : t ≠ .hole) :
    bindEach args (ts ++ t :: us) =
      bindEach args ts ++ t :: bindEach (args.drop (ts.count .hole)) us := by
  rw [bindEach_append, bindEach_cons h]

theorem count_hole_between (h : t ≠ .hole) :
    (ts ++ t :: us).count .hole = ts.count .hole + us.count .hole := by
  rw [List.count_append, List.count_cons_of_ne h]

end Lexeme

namespace Expression

variable {args : List Value} {negated : Bool} {e : Expression}

theorem bind_notIf : (notIf negated e).bind args = notIf negated (e.bind args) := by
  cases negated <;> rfl

theorem holes_notIf : (notIf negated e).holes = e.holes := by
  cases negated <;> rfl

end Expression

namespace Derives

open Expression

/-- Some lexemes are an expression, and remain one with values in place of
the placeholders. -/
def Binds (level : Level) (ts : List Lexeme) (e : Expression) : Prop :=
  ts.count .hole = e.holes ∧ ∀ args, Derives level (Lexeme.bindEach args ts) (e.bind args)

/-- A list of expressions takes its values one expression after the other. -/
theorem binds_items {is : List (List Lexeme × Expression)}
    (h : ∀ i ∈ is, Binds .disjunction i.1 i.2) :
    (Lexeme.commas (is.map Prod.fst)).count .hole = holesOf (is.map Prod.snd) ∧
    ∀ args, ∃ js : List (List Lexeme × Expression), js.length = is.length ∧
      Lexeme.commas (js.map Prod.fst) = Lexeme.bindEach args (Lexeme.commas (is.map Prod.fst)) ∧
      js.map Prod.snd = Expression.bindEach args (is.map Prod.snd) ∧
      ∀ j ∈ js, Derives .disjunction j.1 j.2 := by
  induction is with
  | nil => exact ⟨rfl, fun args => ⟨[], rfl, rfl, rfl, nofun⟩⟩
  | cons i is ih =>
    obtain ⟨hc, hb⟩ := h i List.mem_cons_self
    obtain ⟨hcs, hbs⟩ := ih fun j hj => h j (List.mem_cons_of_mem i hj)
    rcases is with _ | ⟨k, is⟩
    · refine ⟨by simpa [Lexeme.commas, holesOf] using hc, fun args => ?_⟩
      exact ⟨[(Lexeme.bindEach args i.1, i.2.bind args)], rfl, rfl, rfl, by simpa using hb args⟩
    · constructor
      · rw [List.map_cons, List.map_cons, Lexeme.commas, Lexeme.count_hole_between (by decide), hc,
          List.map_cons, holesOf]
        exact congrArg _ hcs
      · intro args
        obtain ⟨js, hlen, hcommas, hsnd, hjs⟩ := hbs (args.drop i.2.holes)
        refine ⟨(Lexeme.bindEach args i.1, i.2.bind args) :: js, by simp [hlen], ?_, ?_, ?_⟩
        · obtain ⟨j, js, rfl⟩ : ∃ j js', js = j :: js' := List.exists_cons_of_length_eq_add_one hlen
          simp only [List.map_cons, Lexeme.commas] at hcommas ⊢
          rw [Lexeme.bindEach_between (by decide), hc, hcommas]
        · simp only [List.map_cons, Expression.bindEach] at hsnd ⊢
          rw [hsnd]
        · rintro j hj
          rcases List.mem_cons.1 hj with rfl | hj
          · exact hb args
          · exact hjs j hj

/-! ### One rule after the other

Each rule of the grammar puts together what takes its values: what it writes
between its parts is no placeholder, and each part leaves the values behind its
own to the next. -/

namespace Binds

variable {a b : List Lexeme} {x y : Expression} {negated : Bool}
  {items : List (List Lexeme × Expression)}

theorem binary {op : BinaryOp} (hx : Binds op.level a x) (hy : Binds op.level.tighter b y) :
    Binds op.level (a ++ op.lexeme :: b) (.binary op x y) := by
  have hop : op.lexeme ≠ .hole := by cases op <;> decide
  constructor
  · rw [Lexeme.count_hole_between hop, hx.1, hy.1, holes]
  · intro args
    rw [Lexeme.bindEach_between hop, hx.1]
    exact .binary (hx.2 args) (hy.2 _)

theorem not (hx : Binds .negation a x) : Binds .negation (.word .not :: a) (.not x) := by
  refine ⟨(List.count_cons_of_ne (by decide)).trans hx.1, fun args => ?_⟩
  rw [Lexeme.bindEach_cons (by decide)]
  exact .not (hx.2 args)

theorem compare {op : Operator} (hx : Binds .sum a x) (hy : Binds .sum b y) :
    Binds .test (a ++ .relation op :: b) (.compare op x y) := by
  constructor
  · rw [Lexeme.count_hole_between (by simp), hx.1, hy.1, holes]
  · intro args
    rw [Lexeme.bindEach_between (by simp), hx.1]
    exact .compare (hx.2 args) (hy.2 _)

theorem notLike (hx : Binds .sum a x) (hy : Binds .sum b y) :
    Binds .test (a ++ .word .not :: .relation .like :: b) (.not (.compare .like x y)) := by
  constructor
  · rw [Lexeme.count_hole_between (by decide), List.count_cons_of_ne (by decide), hx.1, hy.1,
      holes, holes]
  · intro args
    rw [Lexeme.bindEach_between (by decide), Lexeme.bindEach_cons (by decide), hx.1]
    exact .notLike (hx.2 args) (hy.2 _)

theorem isNull (hx : Binds .sum a x) :
    Binds .test (a ++ .word .is :: (Lexeme.notIf negated ++ [.word .null]))
      (.notIf negated (.isNull x)) := by
  constructor
  · rw [Lexeme.count_hole_between (by decide), Lexeme.count_hole_notIf, hx.1, holes_notIf, holes]
    rfl
  · intro args
    rw [Lexeme.bindEach_between (by decide), Lexeme.bindEach_notIf, bind_notIf]
    exact .isNull (hx.2 args)

theorem isIn (hx : Binds .sum a x) (hne : items ≠ [])
    (h : ∀ i ∈ items, Binds .disjunction i.1 i.2) :
    Binds .test
      (a ++ (Lexeme.notIf negated ++
        .word .isIn :: .opens :: (Lexeme.commas (items.map Prod.fst) ++ [.closes])))
      (.notIf negated (.isIn x (items.map Prod.snd))) := by
  obtain ⟨hc, hb⟩ := binds_items h
  constructor
  · rw [List.count_append, Lexeme.count_hole_notIf, List.count_cons_of_ne (by decide),
      List.count_cons_of_ne (by decide), Lexeme.count_hole_between (by decide), hc, hx.1,
      holes_notIf, holes]
    rfl
  · intro args
    obtain ⟨js, hlen, hcommas, hsnd, hjs⟩ := hb (args.drop x.holes)
    have hjne : js ≠ [] := fun hj => hne (List.length_eq_zero_iff.1 (by rw [← hlen, hj]; rfl))
    rw [Lexeme.bindEach_append, Lexeme.bindEach_notIf, Lexeme.bindEach_cons (by decide),
      Lexeme.bindEach_cons (by decide), Lexeme.bindEach_between (by decide), hx.1, ← hcommas,
      bind_notIf, Expression.bind, ← hsnd]
    exact .isIn (hx.2 args) hjne hjs

theorem between {l h : List Lexeme} {low high : Expression} (hx : Binds .sum a x)
    (hl : Binds .sum l low) (hh : Binds .sum h high) :
    Binds .test (a ++ (Lexeme.notIf negated ++ .word .between :: (l ++ .word .and :: h)))
      (.notIf negated (.between x low high)) := by
  constructor
  · rw [List.count_append, Lexeme.count_hole_notIf, List.count_cons_of_ne (by decide),
      Lexeme.count_hole_between (by decide), hx.1, hl.1, hh.1, holes_notIf, holes]
  · intro args
    rw [Lexeme.bindEach_append, Lexeme.bindEach_notIf, Lexeme.bindEach_cons (by decide),
      Lexeme.bindEach_between (by decide), hx.1, hl.1, List.drop_drop, bind_notIf]
    exact .between (hx.2 args) (hl.2 _) (hh.2 _)

theorem column {path : List String} (hne : path ≠ []) :
    Binds .primary (Lexeme.path path) (.column path) := by
  refine ⟨Lexeme.count_hole_path path, fun args => ?_⟩
  rw [Lexeme.bindEach_path]
  exact .column hne

theorem call {f : String} (h : ∀ i ∈ items, Binds .disjunction i.1 i.2) :
    Binds .primary (.name f :: .opens :: (Lexeme.commas (items.map Prod.fst) ++ [.closes]))
      (.call f (items.map Prod.snd)) := by
  obtain ⟨hc, hb⟩ := binds_items h
  constructor
  · rw [List.count_cons_of_ne (by simp), List.count_cons_of_ne (by decide),
      Lexeme.count_hole_between (by decide), hc, holes]
    rfl
  · intro args
    obtain ⟨js, -, hcommas, hsnd, hjs⟩ := hb args
    rw [Lexeme.bindEach_cons (by simp), Lexeme.bindEach_cons (by decide),
      Lexeme.bindEach_between (by decide), ← hcommas, Expression.bind, ← hsnd]
    exact .call hjs

theorem negative (hx : Binds .primary a x) : Binds .primary (.minus :: a) (.negative x) := by
  refine ⟨(List.count_cons_of_ne (by decide)).trans hx.1, fun args => ?_⟩
  rw [Lexeme.bindEach_cons (by decide)]
  exact .negative (hx.2 args)

theorem parens (hx : Binds .disjunction a x) : Binds .primary (.opens :: (a ++ [.closes])) x := by
  constructor
  · rw [List.count_cons_of_ne (by decide), Lexeme.count_hole_between (by decide), hx.1]
    rfl
  · intro args
    rw [Lexeme.bindEach_cons (by decide), Lexeme.bindEach_between (by decide)]
    exact .parens (hx.2 args)

end Binds

/-- **Values go to the placeholders in the order of the text**: an expression
has a hole for each placeholder, and with values in its holes it is what its
text is with the values in place of the placeholders. -/
theorem bind {level : Level} {ts : List Lexeme} {e : Expression} (h : Derives level ts e) :
    Binds level ts e := by
  induction h with
  | loosen hp _ ih => exact ⟨ih.1, fun args => .loosen hp (ih.2 args)⟩
  | binary _ _ iha ihb => exact iha.binary ihb
  | not _ ih => exact ih.not
  | compare _ _ iha ihb => exact iha.compare ihb
  | notLike _ _ iha ihb => exact iha.notLike ihb
  | isNull _ iha => exact iha.isNull
  | isIn _ hne _ iha ih => exact iha.isIn hne ih
  | between _ _ _ iha ihl ihh => exact iha.between ihl ihh
  | literal => exact ⟨rfl, fun _ => .literal⟩
  | null => exact ⟨rfl, fun _ => .null⟩
  | true => exact ⟨rfl, fun _ => .true⟩
  | false => exact ⟨rfl, fun _ => .false⟩
  | hole => exact ⟨rfl, fun _ => .literal⟩
  | column hne => exact .column hne
  | call _ ih => exact .call ih
  | callAll => exact ⟨rfl, fun _ => .callAll⟩
  | negative _ ih => exact ih.negative
  | parens _ ih => exact ih.parens

end Derives

end TypedTables

import Mathlib.Data.List.Forall2
import TypedTables.Proofs.Clause.Compile
import TypedTables.Sql.Statement
/-!
# TypedTables — parts and their placeholders

Statements are woven from fragments that stand for their parts. What keeps
placeholders and arguments side by side in one fragment keeps them so in all that
is woven from it.
-/

namespace TypedTables

/-! ## Placeholders of fragments

A fragment is in balance if its text has a placeholder for each of its
arguments. Text without placeholders keeps the balance, and so does putting
fragments together; so whatever is woven from balanced fragments and such
text is balanced, and each of the fragments stands in it behind as many
placeholders as there are arguments before its own. -/

namespace Sql

/-- The number of placeholders in a text. -/
def marks (text : String) : Nat := text.toList.count '?'

theorem marks_append (a b : String) : marks (a ++ b) = marks a + marks b := by
  simp [marks]

theorem marks_intercalate {separator : String} {texts : List String} (hs : marks separator = 0)
    (h : ∀ text ∈ texts, marks text = 0) : marks (String.intercalate separator texts) = 0 := by
  induction texts with
  | nil => rw [String.intercalate_nil, marks, String.toList_empty, List.count_nil]
  | cons a rest ih =>
    rcases rest with _ | ⟨b, rest⟩
    · rw [String.intercalate_singleton]
      exact h a List.mem_cons_self
    · rw [String.intercalate_cons_cons, marks_append, marks_append, hs, h a List.mem_cons_self,
        ih fun text ht => h text (List.mem_cons_of_mem a ht)]

/-- The digits of a number are no placeholders. -/
theorem marks_natToString (n : Nat) : marks (toString n) = 0 := by
  have hd : ∀ c ∈ Nat.toDigits 10 n, c ≠ '?' := by
    rintro c hc rfl
    exact absurd (Nat.isDigit_of_mem_toDigits (by decide) (by decide) hc) (by decide)
  have ht : (toString n).toList = Nat.toDigits 10 n := by simp [toString, Nat.repr]
  rw [marks, ht]
  exact List.count_eq_zero.2 fun h => hd _ h rfl

/-- **A fragment is in balance**: it has a placeholder for each argument. -/
def Balanced (s : Sql) : Prop := marks s.text = s.args.length

/-- A fragment consists of some others, in their order, and of text without
placeholders around them. -/
inductive Weaves : Sql → List Sql → Prop
  | nil : Weaves empty []
  | text {text : String} {s : Sql} {ps : List Sql} :
      marks text = 0 → Weaves s ps → Weaves (lit text ++ s) ps
  | part {p s : Sql} {ps : List Sql} : Weaves s ps → Weaves (p ++ s) (p :: ps)

/-- A fragment stands in another one behind some arguments: around it there
are balanced fragments, the first of which has these arguments. -/
def Holds (s : Sql) (before : List Value) (p : Sql) : Prop :=
  ∃ pre post : Sql, s = pre ++ p ++ post ∧ pre.Balanced ∧ p.Balanced ∧ post.Balanced ∧
    pre.args = before

variable {s t p : Sql} {ps qs : List Sql}

theorem Balanced.append (hs : s.Balanced) (ht : t.Balanced) : (s ++ t).Balanced := by
  unfold Balanced at *
  rw [text_append, args_append, marks_append, List.length_append, hs, ht]

theorem balanced_empty : empty.Balanced := rfl

theorem balanced_bind (v : Value) : (bind v).Balanced := by
  simp [Balanced, marks]

/-- A balanced fragment without text has no arguments either. -/
theorem Balanced.eq_empty (h : s.Balanced) (ht : s.isEmpty = true) : s = empty := by
  have htext : s.text = "" := by simpa [isEmpty] using ht
  refine ext htext ?_
  rw [Balanced, htext] at h
  exact List.eq_nil_of_length_eq_zero h.symm

/-! ### Weaving -/

namespace Weaves

theorem lit {text : String} (h : marks text = 0) : Weaves (Sql.lit text) [] := by
  have hw := Weaves.text h .nil
  rwa [append_empty] at hw

theorem single (p : Sql) : Weaves p [p] := by
  have hw := Weaves.part (p := p) .nil
  rwa [append_empty] at hw

theorem append (hs : Weaves s ps) (ht : Weaves t qs) : Weaves (s ++ t) (ps ++ qs) := by
  induction hs with
  | nil => rwa [empty_append]
  | text h _ ih =>
    rw [append_assoc]
    exact .text h ih
  | part _ ih =>
    rw [append_assoc]
    exact .part ih

theorem parens (h : Weaves s ps) : Weaves s.parens ps := by
  have hopen : Weaves (Sql.lit "(") [] := lit (by decide)
  have hclose : Weaves (Sql.lit ")") [] := lit (by decide)
  have hw := (hopen.append h).append hclose
  rwa [List.nil_append, List.append_nil] at hw

/-- What is joined is woven, part by part. -/
theorem join {separator : String} (hs : marks separator = 0)
    (h : List.Forall₂ (fun s p => Weaves s [p]) qs ps) : Weaves (Sql.join separator qs) ps := by
  induction h with
  | nil => exact .nil
  | @cons s p qs ps hp hrest ih =>
    rcases hrest with _ | ⟨_, _⟩
    · rw [join_singleton]
      exact hp
    · rw [join_cons_cons, append_assoc]
      exact hp.append (.text hs ih)

theorem join_self {separator : String} (hs : marks separator = 0) (ps : List Sql) :
    Weaves (Sql.join separator ps) ps :=
  join hs (List.forall₂_same.2 fun p _ => single p)

end Weaves

/-! ### Places -/

namespace Holds

variable {before : List Value}

theorem refl (h : s.Balanced) : s.Holds [] s :=
  ⟨empty, empty, by simp, balanced_empty, h, balanced_empty, rfl⟩

theorem append_left (h : t.Holds before p) (hs : s.Balanced) :
    (s ++ t).Holds (s.args ++ before) p := by
  obtain ⟨pre, post, rfl, hpre, hp, hpost, rfl⟩ := h
  exact ⟨s ++ pre, post, by simp only [append_assoc], hs.append hpre, hp, hpost, rfl⟩

theorem append_right (h : s.Holds before p) (ht : t.Balanced) : (s ++ t).Holds before p := by
  obtain ⟨pre, post, rfl, hpre, hp, hpost, rfl⟩ := h
  exact ⟨pre, post ++ t, by simp only [append_assoc], hpre, hp, hpost.append ht, rfl⟩

/-- **Prefixes that end with a part are balanced**: a text that stands in
front of a part, with the part, has as many placeholders as there are
arguments up to the end of the part, and these are the first arguments. -/
theorem marks_prefix (h : s.Holds before p) :
    ∃ front back : String, s.text = front ++ p.text ++ back ∧ marks front = before.length ∧
      marks (front ++ p.text) = (before ++ p.args).length ∧ before ++ p.args <+: s.args := by
  obtain ⟨pre, post, rfl, hpre, hp, -, rfl⟩ := h
  refine ⟨pre.text, post.text, rfl, hpre, ?_, post.args, rfl⟩
  rw [marks_append, List.length_append, hpre, hp]

end Holds

end Sql

/-! ## Parts of statements

The parts that statements write values in: conditions with the clauses inside
them, assignments of an update, the row of an insert, and single values. For
each part it is said what it writes (`Piece.sql`), which values it is about
(`Piece.arguments`), and which parts stand in it (`Piece.children`). A fragment
carries some parts (`Sql.Carries`) if each of them, and each part inside them,
stands where its values are bound. -/

namespace Clause

mutual

/-- The values that a clause is about, in the order in which they are given.
To compare with the empty value is to ask whether a column is empty. -/
def arguments : Clause → List Value
  | compare _ _ value => if value.isNull then [] else [value]
  | isIn _ values => values
  | between _ low high _ => [low, high]
  | columns _ _ => []
  | not clause => clause.arguments
  | group _ children => argumentsOf children
  | raw _ args => args

def argumentsOf : List Clause → List Value
  | [] => []
  | c :: cs => c.arguments ++ argumentsOf cs

end

mutual

/-- No name in a clause has a placeholder in it, and raw text has one for
each of its arguments. -/
def IsMarked : Clause → Prop
  | compare column _ _ | isIn column _ | between column _ _ _ => Sql.marks column = 0
  | columns left right => Sql.marks left = 0 ∧ Sql.marks right = 0
  | not clause => clause.IsMarked
  | group _ children => AreMarked children
  | raw sql args => Sql.marks sql = args.length

def AreMarked : List Clause → Prop
  | [] => True
  | c :: cs => c.IsMarked ∧ AreMarked cs

end

theorem argumentsOf_eq_flatMap (cs : List Clause) : argumentsOf cs = cs.flatMap arguments := by
  induction cs with
  | nil => rfl
  | cons c cs ih => rw [argumentsOf, ih, List.flatMap_cons]

theorem areMarked_iff {cs : List Clause} : AreMarked cs ↔ ∀ c ∈ cs, c.IsMarked := by
  induction cs with
  | nil => simp [AreMarked]
  | cons c cs ih => simp [AreMarked, ih]

end Clause

/-- A part of a statement in which values are written. -/
inductive Piece
  | condition (clause : Clause)
  /-- The assignments of an update. -/
  | assignments (entries : List (String × Value))
  | assignment (entry : String × Value)
  /-- The values of an insert. -/
  | row (values : List Value)
  | argument (value : Value)

namespace Piece

/-- What a part writes. -/
def sql : Piece → Except ClauseError Sql
  | condition c => c.compile
  | assignments entries => .ok (Sql.join ", " (entries.map Statement.assignment))
  | assignment entry => .ok (Statement.assignment entry)
  | row values => .ok (Sql.join ", " (values.map Sql.bind))
  | argument value => .ok (Sql.bind value)

/-- The values that a part is about. -/
def arguments : Piece → List Value
  | condition c => c.arguments
  | assignments entries => entries.map Prod.snd
  | assignment entry => [entry.2]
  | row values => values
  | argument value => [value]

/-- The parts that stand in a part, from left to right. -/
def children : Piece → List Piece
  | condition (.compare _ _ value) => if value.isNull then [] else [argument value]
  | condition (.isIn _ values) => values.map argument
  | condition (.between _ low high _) => [argument low, argument high]
  | condition (.columns _ _) => []
  | condition (.not c) => [condition c]
  | condition (.group _ cs) => cs.map condition
  | condition (.raw _ _) => []
  | assignments entries => entries.map assignment
  | assignment entry => [argument entry.2]
  | row values => values.map argument
  | argument _ => []

/-- Whether a part writes its values by itself: raw text, and values. -/
def IsLeaf : Piece → Prop
  | condition (.raw _ _) | argument _ => True
  | _ => False

/-- No name in a part has a placeholder in it, and raw text has one for each
of its arguments. -/
def IsMarked : Piece → Prop
  | condition c => c.IsMarked
  | assignments entries => ∀ entry ∈ entries, Sql.marks entry.1 = 0
  | assignment entry => Sql.marks entry.1 = 0
  | row _ | argument _ => True

mutual

/-- A part stands in another one, behind the values before it. -/
inductive Within : Piece → List Value → Piece → Prop
  | self {p : Piece} : Within p [] p
  | inside {p q : Piece} {before : List Value} : Among p.children before q → Within p before q

/-- A part stands in one of some parts, behind the values before it. -/
inductive Among : List Piece → List Value → Piece → Prop
  | first {p q : Piece} {ps : List Piece} {before : List Value} :
      Within p before q → Among (p :: ps) before q
  | later {p q : Piece} {ps : List Piece} {before : List Value} :
      Among ps before q → Among (p :: ps) (p.arguments ++ before) q

end

end Piece

/-- **A fragment carries some parts**: it is in balance, its arguments are the
values of the parts in their order, and each part, however deep it stands in
them, is written behind the values before it and before the others. -/
structure Sql.Carries (s : Sql) (ps : List Piece) : Prop where
  balanced : s.Balanced
  args : s.args = ps.flatMap Piece.arguments
  places : ∀ before q, Piece.Among ps before q →
    ∃ written, q.sql = .ok written ∧ written.args = q.arguments ∧ s.Holds before written

namespace Sql.Carries

open Piece

variable {s t : Sql} {ps qs : List Piece} {p : Piece}

theorem lit {text : String} (h : marks text = 0) : (Sql.lit text).Carries [] where
  balanced := h
  args := rfl
  places _ _ h := nomatch h

theorem empty : Sql.empty.Carries [] where
  balanced := balanced_empty
  args := rfl
  places _ _ h := nomatch h

/-- **The text up to the end of a part** has as many placeholders as there are
values up to there, and these are the first arguments. -/
theorem marks_prefix (h : s.Carries ps) {before : List Value} {q : Piece} (hq : Among ps before q) :
    ∃ front written back : String, q.sql = .ok ⟨written, q.arguments⟩ ∧
      s.text = front ++ written ++ back ∧ marks front = before.length ∧
      marks (front ++ written) = (before ++ q.arguments).length ∧
      before ++ q.arguments <+: s.args := by
  obtain ⟨⟨written, args⟩, hw, rfl, hh⟩ := h.places before q hq
  obtain ⟨front, back, hs, hf, hm, hp⟩ := hh.marks_prefix
  exact ⟨front, written, back, hw, hs, hf, hm, hp⟩

theorem append_cases {before : List Value} (h : Among (ps ++ qs) before p) :
    Among ps before p ∨ ∃ rest, before = ps.flatMap Piece.arguments ++ rest ∧ Among qs rest p := by
  induction ps generalizing before with
  | nil => exact .inr ⟨before, rfl, h⟩
  | cons q ps ih =>
    cases h with
    | first h => exact .inl (.first h)
    | later h =>
      rcases ih h with hp | ⟨rest, rfl, hq⟩
      · exact .inl (.later hp)
      · exact .inr ⟨rest, by rw [List.flatMap_cons, List.append_assoc], hq⟩

/-- **Fragments carry their parts one after the other.** -/
theorem append (hs : s.Carries ps) (ht : t.Carries qs) : (s ++ t).Carries (ps ++ qs) where
  balanced := hs.balanced.append ht.balanced
  args := by rw [args_append, hs.args, ht.args, List.flatMap_append]
  places before p h := by
    rcases append_cases h with hp | ⟨rest, rfl, hq⟩
    · obtain ⟨written, hw, ha, hh⟩ := hs.places before p hp
      exact ⟨written, hw, ha, hh.append_right ht.balanced⟩
    · obtain ⟨written, hw, ha, hh⟩ := ht.places rest p hq
      refine ⟨written, hw, ha, ?_⟩
      rw [← hs.args]
      exact hh.append_left hs.balanced

/-- A fragment carries what the fragments that it is woven from carry. -/
theorem of_weaves {frags : List Sql} (hw : Weaves s frags)
    (h : List.Forall₂ (fun f p => f.Carries [p]) frags ps) : s.Carries ps := by
  induction hw generalizing ps with
  | nil =>
    cases h
    exact empty
  | text ht _ ih => exact (lit ht).append (ih h)
  | part _ ih =>
    cases h with
    | cons hp hrest => exact hp.append (ih hrest)

/-- A part that writes its values by itself, in balance. -/
theorem leaf (hl : p.IsLeaf) (hm : p.IsMarked) (h : p.sql = .ok s) : s.Carries [p] := by
  have hs : s.Balanced ∧ s.args = p.arguments := by
    rcases p with (_ | _ | _ | _ | _ | _ | ⟨text, args⟩) | _ | _ | _ | v <;> try exact absurd hl id
    · obtain rfl := Except.ok.inj h
      exact ⟨hm, rfl⟩
    · obtain rfl := Except.ok.inj h
      exact ⟨balanced_bind v, rfl⟩
  refine ⟨hs.1, by simpa using hs.2, fun before q hq => ?_⟩
  cases hq with
  | first hq =>
    cases hq with
    | self => exact ⟨s, h, hs.2, .refl hs.1⟩
    | inside hq => rcases p with (_ | _ | _ | _ | _ | _ | _) | _ | _ | _ | _ <;> first | exact absurd hl id | nomatch hq
  | later hq => nomatch hq

/-- A part that writes what the parts in it write, with text around them. -/
theorem node (hc : s.Carries p.children) (ha : p.children.flatMap Piece.arguments = p.arguments)
    (h : p.sql = .ok s) : s.Carries [p] := by
  have hargs : s.args = p.arguments := hc.args.trans ha
  refine ⟨hc.balanced, by simpa using hargs, fun before q hq => ?_⟩
  cases hq with
  | first hq =>
    cases hq with
    | self => exact ⟨s, h, hargs, .refl hc.balanced⟩
    | inside hq => exact hc.places before q hq
  | later hq => nomatch hq

end Sql.Carries

end TypedTables

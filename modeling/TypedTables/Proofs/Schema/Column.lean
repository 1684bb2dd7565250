import TypedTables.Proofs.Extraction.Field
import TypedTables.Proofs.Schema.Default
import TypedTables.Schema.Table
/-!
# TypedTables — columns read back

The definition of a column is its name, its type and its constraints. Each is
written as a few words, and the engine reads from them what was written. Of all
that can stand in a column only a reserved name keeps it from that. The column
of a field is written just so.
-/

namespace TypedTables

open Token (Breaks Spells joined)
open SqlReader (Reads)

variable {b : List Char} {r : Option (List TokenKind)} {ks : List TokenKind}

/-- A constraint of a column. -/
inductive ColumnConstraint
  | key (isAutoIncrement : Bool)
  | required
  | unique
  | default (literal : WrittenDefault)

namespace ColumnConstraint

/-- The words of a constraint. -/
def words : ColumnConstraint → List String
  | key false => ["PRIMARY", "KEY"]
  | key true => ["PRIMARY", "KEY", "AUTOINCREMENT"]
  | required => ["NOT", "NULL"]
  | unique => ["UNIQUE"]
  | default _ => ["DEFAULT"]

/-- What follows the words. -/
def literal? : ColumnConstraint → Option WrittenDefault
  | default d => some d
  | _ => none

/-- The tokens of a constraint. -/
def kinds (c : ColumnConstraint) : List TokenKind :=
  c.words.map .word ++ (c.literal?.map WrittenDefault.kinds).getD []

/-- The text of a constraint, with a blank before each word and literal. -/
def text (c : ColumnConstraint) : List Char :=
  c.words.flatMap (fun word => ' ' :: word.toList) ++
    (c.literal?.map fun d => ' ' :: d.sql.toList).getD []

/-- Whether a constraint ends the statement it stands in. -/
def endsText (c : ColumnConstraint) : Bool := c.literal?.any WrittenDefault.endsText

/-- What a constraint makes of a column. -/
def Applies : ColumnConstraint → ColumnDefinition → ColumnDefinition → Prop
  | key isAutoIncrement, c, d => d = { c with isKey := true, isAutoIncrement }
  | required, c, d => d = { c with isRequired := true }
  | unique, c, d => d = { c with isUnique := true }
  | default _, c, d => ∃ v, d = { c with defaultValue := some v }

/-- What constraints make of a column, one after the other. -/
def ApplyAll : List ColumnConstraint → ColumnDefinition → ColumnDefinition → Prop
  | [], c, d => d = c
  | x :: xs, c, d => ∃ e, x.Applies c e ∧ ApplyAll xs e d

/-- Whether what follows the words is a literal. -/
def IsSpelled (c : ColumnConstraint) : Prop := ∀ d ∈ c.literal?, d.IsSpelled

theorem words_areValid (c : ColumnConstraint) : ∀ w ∈ c.words, Identifier.isValid w = true := by
  rcases c with (_ | _) | _ | _ | _ <;> simp only [words] <;> decide

/-- **A constraint is written as its tokens**, unless it ends the text. -/
theorem spells (c : ColumnConstraint) (hc : c.IsSpelled) (hb : Breaks b) (h : Spells b r) :
    Spells (c.text ++ b) (joined c.endsText c.kinds r) := by
  rcases hlit : c.literal? with _ | d
  · simp only [text, kinds, endsText, hlit, Option.map_none, Option.getD_none, List.append_nil,
      Option.any_none]
    exact Spells.words c.words_areValid hb h
  · have hspelled := hc d hlit
    have hd := Spells.words c.words_areValid Token.breaks_blank
      (Spells.blank (WrittenDefault.starts_sql hspelled) (WrittenDefault.spells hspelled hb h))
    have htext : c.text ++ b =
        c.words.flatMap (fun word => ' ' :: word.toList) ++ ' ' :: (d.sql.toList ++ b) := by
      simp [text, hlit]
    have hkinds : c.kinds = c.words.map .word ++ d.kinds := by simp [kinds, hlit]
    have hends : c.endsText = d.endsText := by simp [endsText, hlit]
    rw [htext, hkinds, hends]
    rw [Token.joined_joined] at hd
    exact hd

/-- What may follow a constraint: none of the words that a key can have after it. -/
def Follows (ks : List TokenKind) : Prop :=
  ∀ k ∈ ks.head?, k.isWord "asc" = false ∧ k.isWord "autoincrement" = false

theorem follows_kinds (c : ColumnConstraint) : Follows (c.kinds ++ ks) := by
  rcases c with (_ | _) | _ | _ | _ <;> intro k hk <;>
    obtain rfl := Option.some.inj hk <;> decide

/-- **A constraint is taken for what it is.** -/
theorem reads (c : ColumnConstraint) (hc : c.IsSpelled) (hks : Follows ks) {before : ColumnDefinition} :
    Reads (SqlReader.moreConstraint before) (c.kinds ++ ks) ks True
      fun o => ∃ after, o = some after ∧ c.Applies before after := by
  have hasc : ∀ k ∈ ks.head?, k.isWord "asc" = false := fun k hk => (hks k hk).1
  have hauto : ∀ k ∈ ks.head?, k.isWord "autoincrement" = false := fun k hk => (hks k hk).2
  -- constraints are looked for in one order, so each is passed over for those before its own
  rcases c with (_ | _) | _ | _ | d
  · refine (Reads.keywords?_pos rfl).taken ?_
    refine ((Reads.keyword?_neg hasc).discard.bind fun _ _ => (Reads.keyword?_neg hauto).bind fun a ha =>
      .pure ⟨_, rfl, ?_⟩).congr (by simp)
    rw [ha]
    rfl
  · refine (Reads.keywords?_pos rfl).taken ?_
    refine ((Reads.keyword?_neg ?_).discard.bind fun _ _ => (Reads.keyword?_pos rfl).bind fun a ha =>
      .pure ⟨_, rfl, ?_⟩).congr (by simp)
    · intro k hk
      obtain rfl := Option.some.inj hk
      rfl
    · rw [ha]
      rfl
  · refine (Reads.keywords?_neg rfl).passed ((Reads.keywords?_pos rfl).taken ?_)
    exact .pure ⟨_, rfl, rfl⟩
  · refine (Reads.keywords?_neg (Reads.startWith_of_head ?_)).passed
      ((Reads.keywords?_neg (Reads.startWith_of_head ?_)).passed ((Reads.keyword?_neg ?_).passed
        ((Reads.keyword?_pos rfl).taken (.pure ⟨_, rfl, rfl⟩))))
    all_goals
      intro k hk
      obtain rfl := Option.some.inj hk
      rfl
  · have hspelled := hc d rfl
    refine (Reads.keywords?_neg (Reads.startWith_of_head ?_)).passed
      ((Reads.keywords?_neg (Reads.startWith_of_head ?_)).passed ((Reads.keyword?_neg ?_).passed
        ((Reads.keyword?_neg ?_).passed ((Reads.keyword?_pos rfl).taken ?_))))
    case refine_5 =>
      exact ((WrittenDefault.reads hspelled).bind fun v _ => .pure ⟨_, rfl, v, rfl⟩).congr (by simp)
    all_goals
      intro k hk
      obtain rfl := Option.some.inj hk
      rfl

/-- What comes after the last constraint: another part of the table, or its end. -/
def Closes (ks : List TokenKind) : Prop := ks.head? = some (.symbol ",") ∨ ks.head? = some (.symbol ")")

theorem Closes.isWord {word : String} (h : Closes ks) : ∀ k ∈ ks.head?, k.isWord word = false := by
  intro k hk
  rcases h with h | h <;> rw [h] at hk <;> obtain rfl := Option.some.inj hk <;> rfl

theorem Closes.follows (h : Closes ks) : Follows ks := fun k hk => ⟨h.isWord k hk, h.isWord k hk⟩

/-- Nothing else is taken for a constraint. -/
theorem reads_none (h : Closes ks) {c : ColumnDefinition} :
    Reads (SqlReader.moreConstraint c) ks ks True (· = none) :=
  (Reads.keywords?_neg (Reads.startWith_of_head h.isWord)).passed <|
    (Reads.keywords?_neg (Reads.startWith_of_head h.isWord)).passed <|
      (Reads.keyword?_neg h.isWord).passed <| (Reads.keyword?_neg h.isWord).passed <|
        (Reads.keyword?_neg h.isWord).passed <| (Reads.keyword?_neg h.isWord).passed <| .pure rfl

/-- **All constraints of a column are read**, by induction on them. -/
theorem reads_all {cs : List ColumnConstraint} (hcs : ∀ c ∈ cs, c.IsSpelled) (h : Closes ks) :
    ∀ {fuel : Nat} {before : ColumnDefinition}, cs.length < fuel →
      Reads (SqlReader.extend SqlReader.moreConstraint fuel before) (cs.flatMap kinds ++ ks) ks True
        (ApplyAll cs before) := by
  induction cs with
  | nil =>
    rintro (_ | fuel) before hf
    · omega
    · exact Reads.extend_none (reads_none h) rfl
  | cons c cs ih =>
    rintro (_ | fuel) before hf
    · omega
    · have hfuel : cs.length < fuel := by
        rw [List.length_cons] at hf
        omega
      -- a constraint is followed by the next one, or by what ends the column
      have hfollows : Follows (cs.flatMap kinds ++ ks) := by
        rcases cs with _ | ⟨d, cs⟩
        · exact h.follows
        · rw [List.flatMap_cons, List.append_assoc]
          exact follows_kinds d
      rw [List.flatMap_cons, List.append_assoc]
      refine (Reads.extend_some (reads c (hcs c List.mem_cons_self) hfollows) fun after hafter =>
        (ih (fun d hd => hcs d (List.mem_cons_of_mem c hd)) hfuel).mono fun d hd => ?_).congr (by simp)
      exact ⟨after, hafter, hd⟩

theorem length_le_kinds (c : ColumnConstraint) : 1 ≤ c.kinds.length := by
  rcases c with (_ | _) | _ | _ | _ <;> simp [kinds, words]

theorem length_le_flatMap_kinds (cs : List ColumnConstraint) : cs.length ≤ (cs.flatMap kinds).length := by
  induction cs with
  | nil => exact Nat.le_refl _
  | cons c cs ih =>
    have hc := length_le_kinds c
    rw [List.flatMap_cons, List.length_append, List.length_cons]
    omega

/-- **All constraints are written as their tokens**, unless one ends the text. -/
theorem spells_all {cs : List ColumnConstraint} (hcs : ∀ c ∈ cs, c.IsSpelled) (hb : Breaks b)
    (h : Spells b r) :
    Spells (cs.flatMap text ++ b)
      (joined (cs.any endsText) (cs.flatMap kinds) r) := by
  induction cs with
  | nil => exact Token.joined_nil.symm ▸ h
  | cons c cs ih =>
    have hrest := ih fun d hd => hcs d (List.mem_cons_of_mem c hd)
    have hbreaks : Breaks (cs.flatMap text ++ b) := by
      rcases cs with _ | ⟨d, cs⟩
      · exact hb
      · rcases d with (_ | _) | _ | _ | _ <;> exact Token.breaks_blank
    have hall := spells c (hcs c List.mem_cons_self) hbreaks hrest
    rw [Token.joined_joined] at hall
    rw [List.flatMap_cons, List.append_assoc]
    exact hall

theorem applyAll_append {xs ys : List ColumnConstraint} {c d : ColumnDefinition} :
    ApplyAll (xs ++ ys) c d ↔ ∃ e, ApplyAll xs c e ∧ ApplyAll ys e d := by
  induction xs generalizing c with
  | nil => exact ⟨fun h => ⟨c, rfl, h⟩, fun ⟨_, he, h⟩ => he ▸ h⟩
  | cons x xs ih =>
    constructor
    · rintro ⟨e, hx, h⟩
      obtain ⟨e', hxs, hys⟩ := ih.1 h
      exact ⟨e', ⟨e, hx, hxs⟩, hys⟩
    · rintro ⟨e', ⟨e, hx, hxs⟩, hys⟩
      exact ⟨e, hx, ih.2 ⟨e', hxs, hys⟩⟩

end ColumnConstraint

open ColumnConstraint (Closes applyAll_append)

/-- The types of columns are names, and not reserved. -/
theorem Affinity.sql_isName (a : Affinity) :
    Identifier.isValid a.sql = true ∧ Keyword.isReserved a.sql = false := by
  cases a <;> decide +kernel

namespace WrittenColumn

variable {c : WrittenColumn}

/-- The constraints of a column, in the order in which they are written. -/
def constraints (c : WrittenColumn) : List ColumnConstraint :=
  (if c.isPrimaryKey then [.key c.isAutoIncrement] else []) ++
    (if c.isNotNull then [.required] else []) ++
    (if c.isUnique then [.unique] else []) ++
    (c.defaultValue.map .default).toList

/-- The tokens of a column. -/
def kinds (c : WrittenColumn) : List TokenKind :=
  .word c.name :: .word c.affinity.sql :: c.constraints.flatMap ColumnConstraint.kinds

/-- The column that the engine reads, but for the value of its default. -/
def definition (c : WrittenColumn) (value : Value) : ColumnDefinition :=
  { name := c.name
    typeName := c.affinity.sql
    isKey := c.isPrimaryKey
    isAutoIncrement := c.isPrimaryKey && c.isAutoIncrement
    isRequired := c.isNotNull
    isUnique := c.isUnique
    defaultValue := c.defaultValue.map fun _ => value }

/-- Whether a column is defined as it is written, with whatever default value. -/
def HasColumn (c : WrittenColumn) (d : ColumnDefinition) : Prop := ∃ value, d = c.definition value

/-- Words with blanks between them are the first one, and the others behind
blanks. -/
theorem intercalate_blank_toList (w : String) (ws : List String) :
    (String.intercalate " " (w :: ws)).toList = w.toList ++ ws.flatMap (' ' :: ·.toList) := by
  induction ws generalizing w with
  | nil => simp
  | cons v ws ih =>
    have hrest := ih v
    simp only [String.toList_intercalate, List.map_cons, List.flatMap_cons] at hrest ⊢
    rw [List.intercalate_cons_cons, hrest]
    simp

theorem sql_toList (c : WrittenColumn) : c.sql.toList =
    c.name.toList ++ ' ' :: (c.affinity.sql.toList ++ c.constraints.flatMap ColumnConstraint.text) := by
  have hkey : (if c.isPrimaryKey then ["PRIMARY", "KEY"] else []) ++
      (if c.isPrimaryKey && c.isAutoIncrement then ["AUTOINCREMENT"] else []) =
      (if c.isPrimaryKey then [ColumnConstraint.key c.isAutoIncrement] else []).flatMap ColumnConstraint.words := by
    cases c.isPrimaryKey <;> cases c.isAutoIncrement <;> rfl
  unfold sql constraints
  rw [List.append_assoc [c.name, c.affinity.sql], hkey]
  simp only [List.cons_append, intercalate_blank_toList, List.flatMap_append]
  cases c.isPrimaryKey <;> cases c.isNotNull <;> cases c.isUnique <;> cases c.defaultValue <;>
    simp [ColumnConstraint.text, ColumnConstraint.words, ColumnConstraint.literal?]

theorem any_endsText (c : WrittenColumn) : c.constraints.any ColumnConstraint.endsText = c.endsText := by
  unfold constraints endsText
  cases c.isPrimaryKey <;> cases c.isNotNull <;> cases c.isUnique <;> cases c.defaultValue <;>
    simp [ColumnConstraint.endsText, ColumnConstraint.literal?]

theorem isSpelled_constraints (hc : c.IsSpelled) : ∀ x ∈ c.constraints, x.IsSpelled := by
  intro x hx d hd
  refine hc.default_isSpelled d ?_
  unfold constraints at hx
  simp only [List.mem_append, Option.mem_toList, Option.map_eq_some_iff] at hx
  rcases hx with ((hx | hx) | hx) | ⟨e, he, rfl⟩
  · split at hx <;> simp_all [ColumnConstraint.literal?]
  · split at hx <;> simp_all [ColumnConstraint.literal?]
  · split at hx <;> simp_all [ColumnConstraint.literal?]
  · obtain rfl : e = d := Option.some.inj hd
    exact he

/-- **A column is written as its tokens**, unless its default ends the text. -/
theorem spells (hc : c.IsSpelled) (hb : Breaks b) (h : Spells b r) :
    Spells (c.sql.toList ++ b) (joined c.endsText c.kinds r) := by
  have hconstraints := ColumnConstraint.spells_all (isSpelled_constraints hc) hb h
  have hbreaks : Breaks (c.constraints.flatMap ColumnConstraint.text ++ b) := by
    rcases c.constraints with _ | ⟨x, xs⟩
    · exact hb
    · rcases x with (_ | _) | _ | _ | _ <;> exact Token.breaks_blank
  have htype := c.affinity.sql_isName.1
  have hwords := Spells.word hc.name_isValid Token.breaks_blank
    (Spells.blank (Token.starts_word htype) (Spells.word htype hbreaks hconstraints))
  rw [any_endsText, Token.map_joined, Token.map_joined] at hwords
  rw [sql_toList, List.append_assoc, List.cons_append, List.append_assoc]
  exact hwords

/-- Nothing but a constraint or the end of the column comes after its type. -/
theorem endsType_constraints (h : Closes ks) :
    Reads.EndsType (c.constraints.flatMap ColumnConstraint.kinds ++ ks) := by
  rcases c.constraints with _ | ⟨x, xs⟩
  · constructor
    · rintro ⟨k, spelling, gap⟩ hk
      have hk : ks.head? = some k := hk
      rcases h with h | h <;> rw [h] at hk <;> obtain rfl := Option.some.inj hk <;> rfl
    · intro hk
      have hk : ks.head? = some _ := hk
      rcases h with h | h <;> rw [h] at hk <;> exact absurd hk (by decide)
  · rw [List.flatMap_cons, List.append_assoc]
    constructor
    · rintro ⟨k, spelling, gap⟩ hk
      rcases x with (_ | _) | _ | _ | _ <;> obtain rfl := Option.some.inj hk <;> rfl
    · rcases x with (_ | _) | _ | _ | _ <;> simp [ColumnConstraint.kinds, ColumnConstraint.words]

/-- What the constraints of a column make of it is what was written. -/
theorem hasColumn_of_applyAll {d : ColumnDefinition}
    (h : ColumnConstraint.ApplyAll c.constraints { name := c.name, typeName := c.affinity.sql } d) :
    c.HasColumn d := by
  unfold constraints at h
  obtain ⟨d₃, h, hdefault⟩ := applyAll_append.1 h
  obtain ⟨d₂, h, hunique⟩ := applyAll_append.1 h
  obtain ⟨d₁, hkey, hrequired⟩ := applyAll_append.1 h
  -- each kind of constraint is there or not, and changes one thing of the column
  have h₁ : d₁ = { name := c.name, typeName := c.affinity.sql, isKey := c.isPrimaryKey
                   isAutoIncrement := c.isPrimaryKey && c.isAutoIncrement } := by
    cases hk : c.isPrimaryKey <;> simpa [ColumnConstraint.ApplyAll, ColumnConstraint.Applies, hk] using hkey
  have h₂ : d₂ = { d₁ with isRequired := c.isNotNull } := by
    cases hr : c.isNotNull
    · have hsame : d₂ = d₁ := by simpa [ColumnConstraint.ApplyAll, hr] using hrequired
      rw [hsame, h₁]
    · simpa [ColumnConstraint.ApplyAll, ColumnConstraint.Applies, hr] using hrequired
  have h₃ : d₃ = { d₂ with isUnique := c.isUnique } := by
    cases hu : c.isUnique
    · have hsame : d₃ = d₂ := by simpa [ColumnConstraint.ApplyAll, hu] using hunique
      rw [hsame, h₂, h₁]
    · simpa [ColumnConstraint.ApplyAll, ColumnConstraint.Applies, hu] using hunique
  unfold HasColumn definition
  rcases hd : c.defaultValue with _ | literal <;> rw [hd] at hdefault
  · have hsame : d = d₃ := hdefault
    refine ⟨.null, ?_⟩
    rw [hsame, h₃, h₂, h₁]
    rfl
  · obtain ⟨_, ⟨value, rfl⟩, hsame⟩ := hdefault
    refine ⟨value, ?_⟩
    rw [hsame, h₃, h₂, h₁]
    rfl

/-- **A column is read as it is written**, unless its name is reserved. -/
theorem reads (hc : c.IsSpelled) (h : Closes ks) :
    Reads SqlReader.columnDefinition (c.kinds ++ ks) ks (Keyword.isReserved c.name = false) c.HasColumn := by
  refine (Reads.name_word.bind fun name hname => (Reads.typeName_word c.affinity.sql_isName.2
    (endsType_constraints h)).bind fun type htype => Reads.bind_get (C := True) fun s hs => ?_).congr (by simp)
  have hfuel : c.constraints.length < s.tokens.length + 1 := by
    have hlen := congrArg List.length hs
    rw [ReaderState.kinds, List.length_map, List.length_append] at hlen
    have hle := ColumnConstraint.length_le_flatMap_kinds c.constraints
    omega
  refine (ColumnConstraint.reads_all (isSpelled_constraints hc) h hfuel).mono fun d hd => ?_
  rw [hname, htype] at hd
  exact hasColumn_of_applyAll hd

end WrittenColumn

/-! ## Fields -/

namespace Field

variable {f : Field}

/-- The column of a field as it is written. A key is unique by itself. -/
def written (f : Field) : WrittenColumn where
  name := f.columnName
  affinity := f.semanticType.affinity
  isPrimaryKey := f.isPrimaryKey
  isAutoIncrement := f.isAutoIncrement
  isNotNull := f.isNotNull
  isUnique := f.isUnique && !f.isPrimaryKey
  defaultValue := f.defaultValue.map DefaultValue.written

theorem isSpelled_written (hf : f.IsSound) : f.written.IsSpelled where
  name_isValid := hf.columnName_isValid
  default_isSpelled d hd := by
    obtain ⟨v, hv, rfl⟩ := Option.map_eq_some_iff.1 hd
    exact DefaultValue.isSpelled_written (hf.default_fits v hv)

/-- **The column of a field is written as it is to be.** -/
theorem columnSql_eq (f : Field) : f.columnSql = f.written.sql := by
  rw [← String.toList_inj, WrittenColumn.sql_toList]
  unfold columnSql written WrittenColumn.constraints
  cases f.isPrimaryKey <;> cases f.isAutoIncrement <;> cases f.isNotNull <;> cases f.isUnique <;>
    cases f.defaultValue <;>
    simp [ColumnConstraint.text, ColumnConstraint.words, ColumnConstraint.literal?, DefaultValue.sql_eq]

end Field

end TypedTables

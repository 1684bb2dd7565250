import TypedTables.Database.Reader
import TypedTables.Proofs.Database.Scan
/-!
# TypedTables — what a reader does on tokens

Whether a reader succeeds depends on the kinds of the tokens alone, not on how
they are spelled. `Reads m ks rest C P` says all about a run of `m` on tokens
of the kinds `ks`: it succeeds just if `C` holds, and then it leaves tokens of
the kinds `rest`, has met no placeholder, and its result is as `P` says. There
is one lemma for each reader that others are put together from.
-/

namespace TypedTables

/-- The kinds of the tokens that are left. -/
def ReaderState.kinds (s : ReaderState) : List TokenKind := s.tokens.map (·.kind)

/-- Whether a token is a word, whatever the case of its letters. -/
def TokenKind.isWord (word : String) : TokenKind → Bool
  | .word text => Keyword.same text word
  | _ => false

/-- Whether tokens start with some words. -/
def TokenKind.startWith (words : List String) (ks : List TokenKind) : Bool :=
  words.length ≤ ks.length && (words.zip ks).all fun p => p.2.isWord p.1

namespace SqlReader

variable {α β : Type} {m : SqlReader α} {f : α → SqlReader β} {A B : SqlReader α} {x : SqlReader Bool}
  {k : TokenKind} {ks rest rest' : List TokenKind} {C D : Prop} {P R : α → Prop} {Q : β → Prop}
  {w : String}

/-- **A reader on tokens of some kinds**: it succeeds just under a condition,
and then leaves the rest. -/
def Reads (m : SqlReader α) (ks rest : List TokenKind) (C : Prop) (P : α → Prop) : Prop :=
  ∀ s : ReaderState, s.kinds = ks →
    (C → ∃ a s', m s = some (a, s') ∧ s'.kinds = rest ∧ s'.placeholders = s.placeholders ∧ P a) ∧
      (¬C → m s = none)

/-- **A word that is a name in a list of terms.** -/
def IsTermName (w : String) : Prop := Keyword.isReserved w = false ∧ Keyword.startsTerm w = false

/-- A reader that cannot read tokens of some kinds. -/
def Fails (m : SqlReader α) (ks : List TokenKind) : Prop := ∀ s : ReaderState, s.kinds = ks → m s = none

/-- **What a reader gives**, if it succeeds at all, whatever it leaves. -/
def Gives (m : SqlReader α) (ks : List TokenKind) (P : α → Prop) : Prop :=
  ∀ (s : ReaderState) (a : α) (s' : ReaderState), s.kinds = ks → m s = some (a, s') → P a

theorem gives_pure {a : α} (h : P a) : Gives (pure a) ks P := by
  intro s b s' _ hrun
  obtain ⟨rfl, -⟩ := Prod.mk.inj (Option.some.inj hrun)
  exact h

/-- What comes last decides what is given. -/
theorem gives_bind (hf : ∀ a ks', Gives (f a) ks' Q) : Gives (m >>= f) ks Q := by
  intro s b s' _ hrun
  obtain ⟨⟨a, s₁⟩, -, hrest⟩ := Option.bind_eq_some_iff.1 hrun
  exact hf a s₁.kinds s₁ b s' rfl hrest

theorem gives_get {f : ReaderState → SqlReader β}
    (h : ∀ s : ReaderState, s.kinds = ks → Gives (f s) ks Q) : Gives (get >>= f) ks Q :=
  fun s b s' hs => h s hs s b s' hs

theorem fails_failure : Fails (failure : SqlReader α) ks := fun _ _ => rfl

/-- Nothing is read after a failure. -/
theorem Fails.bind (h : Fails m ks) : Fails (m >>= f) ks := by
  intro s hs
  have hbind : (m >>= f) s = (m s).bind fun p => f p.1 p.2 := rfl
  rw [hbind, h s hs]
  rfl

theorem Fails.bind_get {f : ReaderState → SqlReader β}
    (h : ∀ s : ReaderState, s.kinds = ks → Fails (f s) ks) : Fails (get >>= f) ks :=
  fun s hs => h s hs s hs

namespace Reads

theorem pure {a : α} (h : P a) : Reads (pure a) ks ks True P :=
  fun s hs => ⟨fun _ => ⟨a, s, rfl, hs, rfl, h⟩, fun hn => absurd trivial hn⟩

/-- One reader after the other: both conditions have to hold. -/
theorem bind (hm : Reads m ks rest C P) (hf : ∀ a, P a → Reads (f a) rest rest' D Q) :
    Reads (m >>= f) ks rest' (C ∧ D) Q := by
  intro s hs
  obtain ⟨hok, hfail⟩ := hm s hs
  have hbind : (m >>= f) s = (m s).bind fun p => f p.1 p.2 := rfl
  rw [hbind]
  by_cases hC : C
  · obtain ⟨a, s₁, hrun, hrest, hcount, ha⟩ := hok hC
    obtain ⟨hok', hfail'⟩ := hf a ha s₁ hrest
    rw [hrun, Option.bind_some]
    refine ⟨fun h => ?_, fun h => hfail' fun hC' => h ⟨hC, hC'⟩⟩
    obtain ⟨b, s₂, hrun', hrest', hcount', hb⟩ := hok' h.2
    exact ⟨b, s₂, hrun', hrest', hcount'.trans hcount, hb⟩
  · rw [hfail hC]
    exact ⟨fun h => absurd h.1 hC, fun _ => rfl⟩

/-- What is given behind what was read. -/
theorem gives (hm : Reads m ks rest C P) (hf : ∀ a, P a → C → Gives (f a) rest Q) : Gives (m >>= f) ks Q := by
  intro s b s' hs hrun
  obtain ⟨⟨a, s₁⟩, hfirst, hrest⟩ := Option.bind_eq_some_iff.1 hrun
  obtain ⟨hok, hfail⟩ := hm s hs
  by_cases hC : C
  · obtain ⟨a', s₂, hrun', hkinds, -, ha⟩ := hok hC
    obtain ⟨rfl, rfl⟩ := Prod.mk.inj (Option.some.inj (hfirst.symm.trans hrun'))
    exact hf a ha hC s₁ b s' hkinds hrest
  · rw [hfail hC] at hfirst
    cases hfirst

/-- A failure behind what was read is a failure of the whole. -/
theorem bind_fails (hm : Reads m ks rest C P) (hf : ∀ a, P a → Fails (f a) rest) :
    Fails (m >>= f) ks := by
  intro s hs
  have h : Reads (m >>= f) ks rest (C ∧ False) fun _ => True :=
    hm.bind fun a ha => fun s hs => ⟨nofun, fun _ => hf a ha s hs⟩
  exact (h s hs).2 fun hn => hn.2

theorem imp (h : Reads m ks rest C P) (hC : D ↔ C) (hP : ∀ a, P a → R a) :
    Reads m ks rest D R := by
  intro s hs
  obtain ⟨hok, hfail⟩ := h s hs
  refine ⟨fun hC' => ?_, fun hC' => hfail (mt hC.2 hC')⟩
  obtain ⟨a, s', hrun, hrest, hcount, ha⟩ := hok (hC.1 hC')
  exact ⟨a, s', hrun, hrest, hcount, hP a ha⟩

theorem mono (h : Reads m ks rest C P) (hP : ∀ a, P a → R a) : Reads m ks rest C R :=
  h.imp Iff.rfl hP

theorem congr (h : Reads m ks rest C P) (hC : D ↔ C) : Reads m ks rest D P :=
  h.imp hC fun _ => id

/-- A reader that fails on some tokens never succeeds there, whatever it would
leave. -/
theorem of_fails (h : Fails m ks) : Reads m ks rest False P := fun s hs => ⟨nofun, fun _ => h s hs⟩

/-- What cannot be read where its condition fails. -/
theorem fails (h : Reads m ks rest C P) (hC : ¬C) : Fails m ks := fun s hs => (h s hs).2 hC

theorem discard (h : Reads m ks rest C P) : Reads (discard m) ks rest C fun _ => True := by
  intro s hs
  obtain ⟨hok, hfail⟩ := h s hs
  have hmap : Functor.discard m s = (m s).bind fun p => some (PUnit.unit, p.2) := rfl
  refine ⟨fun hC => ?_, fun hC => ?_⟩
  · obtain ⟨a, s', hrun, hrest, hcount, -⟩ := hok hC
    exact ⟨.unit, s', by rw [hmap, hrun]; rfl, hrest, hcount, trivial⟩
  · rw [hmap, hfail hC]
    rfl

/-- What was read so far can be asked for. -/
theorem bind_get {f : ReaderState → SqlReader β}
    (h : ∀ s : ReaderState, s.kinds = ks → Reads (f s) ks rest C Q) : Reads (get >>= f) ks rest C Q :=
  fun s hs => h s hs s hs

/-! ## Single tokens -/

theorem isWord_eq (word : String) (t : Token) : isKeyword word t = t.kind.isWord word := by
  rcases t with ⟨_ | _ | _ | _ | _, _, _⟩ <;> rfl

theorem run_pure (a : α) (s : ReaderState) : (Pure.pure a : SqlReader α) s = some (a, s) := rfl

theorem run_bind (m : SqlReader α) (f : α → SqlReader β) (s : ReaderState) :
    (m >>= f) s = (m s).bind fun p => f p.1 p.2 := rfl

theorem run_get (s : ReaderState) : (get : SqlReader ReaderState) s = some (s, s) := rfl

theorem run_map (f : α → β) (m : SqlReader α) (s : ReaderState) :
    (f <$> m) s = (m s).bind fun p => some (f p.1, p.2) := rfl

theorem run_modify (f : ReaderState → ReaderState) (s : ReaderState) :
    (modify f : SqlReader PUnit) s = some (.unit, f s) := rfl

theorem takeIf_cons (test : Token → Bool) (t : Token) (ts : List Token) (n : Nat) :
    takeIf test ⟨t :: ts, n⟩ = some (test t, ⟨if test t then ts else t :: ts, n⟩) := by
  rcases h : test t <;>
    simp [takeIf, h, run_bind, run_get, run_map, run_modify, run_pure]

/-- A token that passes a test is taken. -/
theorem takeIf_pos {test : Token → Bool} (h : ∀ t : Token, t.kind = k → test t = true) :
    Reads (takeIf test) (k :: ks) ks True (· = true) := by
  rintro ⟨ts, n⟩ hs
  obtain ⟨t, ts, rfl, hk, rfl⟩ := List.map_eq_cons_iff.1 hs
  refine ⟨fun _ => ⟨true, ⟨ts, n⟩, ?_, rfl, rfl, rfl⟩, fun hn => absurd trivial hn⟩
  rw [takeIf_cons, h t hk]
  rfl

/-- A token that does not, or the end, is left. -/
theorem takeIf_neg {test : Token → Bool} (h : ∀ t : Token, t.kind ∈ ks.head? → test t = false) :
    Reads (takeIf test) ks ks True (· = false) := by
  rintro ⟨ts, n⟩ hs
  refine ⟨fun _ => ⟨false, ⟨ts, n⟩, ?_, hs, rfl, rfl⟩, fun hn => absurd trivial hn⟩
  rcases ts with _ | ⟨t, ts⟩
  · rfl
  · have hkind : t.kind ∈ ks.head? := by
      rw [← hs]
      rfl
    rw [takeIf_cons, h t hkind]
    rfl

theorem keyword?_pos (h : k.isWord w = true) : Reads (keyword? w) (k :: ks) ks True (· = true) :=
  takeIf_pos fun t ht => by rw [isWord_eq, ht, h]

theorem keyword?_neg (h : ∀ k ∈ ks.head?, k.isWord w = false) :
    Reads (keyword? w) ks ks True (· = false) :=
  takeIf_neg fun t ht => by rw [isWord_eq, h _ ht]

theorem symbol?_pos : Reads (symbol? w) (.symbol w :: ks) ks True (· = true) :=
  takeIf_pos fun _ ht => by rw [ht, beq_self_eq_true]

theorem symbol?_neg (h : .symbol w ∉ ks.head?) : Reads (symbol? w) ks ks True (· = false) :=
  takeIf_neg fun _ ht => beq_eq_false_iff_ne.2 fun he => h (he ▸ ht)

theorem startWith_eq {words : List String} {ts : List Token} :
    (words.length ≤ ts.length && (words.zip ts).all fun (w, t) => isKeyword w t) =
      TokenKind.startWith words (ts.map (·.kind)) := by
  rw [TokenKind.startWith, List.length_map]
  congr 1
  induction words generalizing ts with
  | nil => rfl
  | cons w words ih =>
    rcases ts with _ | ⟨t, ts⟩
    · rfl
    · rw [List.zip_cons_cons, List.map_cons, List.zip_cons_cons, List.all_cons, List.all_cons, ih]
      exact congrArg (· && _) (isWord_eq w t)

/-- Tokens do not start with words if the first one is another. -/
theorem startWith_of_head {words : List String} (h : ∀ k ∈ ks.head?, k.isWord w = false) :
    TokenKind.startWith (w :: words) ks = false := by
  rcases ks with _ | ⟨k, ks⟩
  · rfl
  · have hk : k.isWord w = false := h k rfl
    simp [TokenKind.startWith, hk]

theorem keywords?_pos {words : List String} (h : TokenKind.startWith words ks = true) :
    Reads (keywords? words) ks (ks.drop words.length) True (· = true) := by
  rintro ⟨ts, n⟩ hs
  refine ⟨fun _ => ⟨true, ⟨ts.drop words.length, n⟩, ?_, ?_, rfl, rfl⟩, fun hn => absurd trivial hn⟩
  · rw [← hs, ReaderState.kinds, ← startWith_eq] at h
    simp [keywords?, h, run_bind, run_get, run_map, run_modify]
  · rw [← hs, ReaderState.kinds, ReaderState.kinds, List.map_drop]

theorem keywords?_neg {words : List String} (h : TokenKind.startWith words ks = false) :
    Reads (keywords? words) ks ks True (· = false) := by
  rintro ⟨ts, n⟩ hs
  refine ⟨fun _ => ⟨false, ⟨ts, n⟩, ?_, hs, rfl, rfl⟩, fun hn => absurd trivial hn⟩
  rw [← hs, ReaderState.kinds, ← startWith_eq] at h
  simp [keywords?, h, run_bind, run_get, run_pure]

/-- What was asked for has come next. -/
theorem taken (hx : Reads x ks rest True (· = true)) (hA : Reads A rest rest' C P) :
    Reads (x >>= fun b => if b = true then A else B) ks rest' C P := by
  refine (hx.bind (D := C) (Q := P) ?_).congr (by simp)
  rintro _ rfl
  exact hA

/-- What was asked for has not come next. -/
theorem passed (hx : Reads x ks ks True (· = false)) (hB : Reads B ks rest' C P) :
    Reads (x >>= fun b => if b = true then A else B) ks rest' C P := by
  refine (hx.bind (D := C) (Q := P) ?_).congr (by simp)
  rintro _ rfl
  exact hB

theorem gives_taken (hx : Reads x ks rest True (· = true)) (hA : Gives A rest P) :
    Gives (x >>= fun b => if b = true then A else B) ks P := by
  refine hx.gives ?_
  rintro _ rfl -
  exact hA

theorem gives_passed (hx : Reads x ks ks True (· = false)) (hB : Gives B ks P) :
    Gives (x >>= fun b => if b = true then A else B) ks P := by
  refine hx.gives ?_
  rintro _ rfl -
  exact hB

theorem symbol_pos : Reads (symbol w) (.symbol w :: ks) ks True fun _ => True :=
  symbol?_pos.taken (.pure trivial)

theorem symbol_neg (h : .symbol w ∉ ks.head?) : Fails (symbol w) ks := by
  refine (symbol?_neg h).bind_fails ?_
  rintro _ rfl
  exact fails_failure

theorem keyword_pos (h : k.isWord w = true) : Reads (keyword w) (k :: ks) ks True fun _ => True :=
  (keyword?_pos h).taken (.pure trivial)

/-! ## Names -/

theorem next_cons (t : Token) (ts : List Token) (n : Nat) :
    next ⟨t :: ts, n⟩ = some (t, ⟨ts, n⟩) := rfl

/-- A word is a name unless it is reserved. -/
theorem name_word : Reads name (.word w :: ks) ks (Keyword.isReserved w = false) (· = w) := by
  rintro ⟨ts, n⟩ hs
  obtain ⟨⟨_, spelling, gap⟩, ts, rfl, rfl, rfl⟩ := List.map_eq_cons_iff.1 hs
  rcases h : Keyword.isReserved w with _ | _
  · have hrun : name ⟨⟨.word w, spelling, gap⟩ :: ts, n⟩ = some (w, ⟨ts, n⟩) := by
      simp [name, run_bind, next_cons, nameOf?, h, run_pure]
    exact ⟨fun _ => ⟨w, ⟨ts, n⟩, hrun, rfl, rfl, rfl⟩, fun hn => absurd rfl hn⟩
  · have hrun : name ⟨⟨.word w, spelling, gap⟩ :: ts, n⟩ = none := by
      simp [name, run_bind, next_cons, nameOf?, h]
      rfl
    exact ⟨fun hn => Bool.noConfusion hn, fun _ => hrun⟩

/-- A symbol is no name. -/
theorem name_symbol : Fails name (.symbol w :: ks) := by
  rintro ⟨ts, n⟩ hs
  obtain ⟨⟨_, spelling, gap⟩, ts, rfl, rfl, rfl⟩ := List.map_eq_cons_iff.1 hs
  rfl

/-- The start of a guard is no name of something new. -/
theorem newName_word : Reads newName (.word w :: ks) ks
    (Keyword.isReserved w = false ∧ Keyword.same w "if" = false) (· = w) := by
  rcases h : Keyword.same w "if" with _ | _
  · refine (passed (keyword?_neg ?_) name_word).congr (by simp)
    intro k hk
    obtain rfl := Option.some.inj hk
    exact h
  · exact (taken (keyword?_pos (k := .word w) h) (of_fails fails_failure)).congr (by simp)

/-- A word is a name in a list of terms unless it starts a term of its own. -/
theorem termName_word : Reads termName (.word w :: ks) ks (IsTermName w) (· = w) := by
  refine bind_get fun s hs => ?_
  obtain ⟨⟨_, spelling, gap⟩, ts, hts, rfl, -⟩ := List.map_eq_cons_iff.1 hs
  have hstart : s.tokens.head?.any startsTerm = Keyword.startsTerm w := by
    rw [hts]
    rfl
  rw [hstart]
  rcases h : Keyword.startsTerm w with _ | _
  · exact name_word.congr (by simp [IsTermName, h])
  · exact (of_fails fails_failure).congr (by simp [IsTermName, h])

theorem termName_symbol : Fails termName (.symbol w :: ks) := by
  refine .bind_get fun s hs => ?_
  obtain ⟨⟨_, spelling, gap⟩, ts, hts, rfl, -⟩ := List.map_eq_cons_iff.1 hs
  have hstart : s.tokens.head?.any startsTerm = false := by
    rw [hts]
    rfl
  rw [hstart]
  exact name_symbol

/-- The text that was read is whatever it is. -/
theorem textSince {start : List Token} : Reads (textSince start) ks ks True fun _ => True :=
  fun s hs => ⟨fun _ => ⟨_, s, rfl, hs, rfl, trivial⟩, fun hn => absurd trivial hn⟩

end Reads

/-- Names with commas between them. -/
def nameKinds (ns : List String) : List TokenKind := Token.separated (ns.map fun n => [.word n])

/-- Whether a value is a number. -/
def IsNumber (v : Value) : Prop := (∃ n, v = .integer n) ∨ ∃ x, v = .real x

namespace Reads

theorem length_le_nameKinds (ns : List String) : ns.length ≤ (nameKinds ns).length := by
  induction ns with
  | nil => exact Nat.le_refl _
  | cons n ns ih =>
    rcases ns with _ | ⟨m, ns⟩
    · exact Nat.le_refl _
    · have hlen : (nameKinds (n :: m :: ns)).length = (nameKinds (m :: ns)).length + 2 := rfl
      simp only [List.length_cons] at ih ⊢
      omega

/-- The names after the first one, each behind a comma. -/
theorem afterComma_names {n : String} {ns : List String} (h : .symbol "," ∉ rest.head?) :
    ∀ {fuel : Nat}, ns.length < fuel →
      Reads (afterComma termName fuel) ((nameKinds (n :: ns)).tail ++ rest) rest
        (∀ m ∈ ns, IsTermName m) (· = ns) := by
  induction ns generalizing n with
  | nil =>
    rintro (_ | fuel) hf
    · omega
    · exact Reads.congr (C := True) ((symbol?_neg h).passed (.pure rfl)) (by simp)
  | cons m ns ih =>
    rintro (_ | fuel) hf
    · omega
    · have hrest : (nameKinds (n :: m :: ns)).tail ++ rest =
          .symbol "," :: .word m :: ((nameKinds (m :: ns)).tail ++ rest) := by
        rcases ns with _ | ⟨l, ns⟩ <;> rfl
      rw [hrest]
      have hns : ns.length < fuel := by
        rw [List.length_cons] at hf
        omega
      refine (symbol?_pos.taken (termName_word.bind fun a ha =>
        (ih hns).bind (D := True) (Q := (· = m :: ns)) ?_)).congr ?_
      · rintro _ rfl
        exact .pure (by rw [ha])
      · simp

/-- One or more names. -/
theorem commaList_names {n : String} {ns : List String} (h : .symbol "," ∉ rest.head?) :
    Reads (commaList termName) (nameKinds (n :: ns) ++ rest) rest
      (∀ m ∈ n :: ns, IsTermName m) (· = n :: ns) := by
  refine bind_get fun s hs => ?_
  have hfuel : ns.length < s.tokens.length + 1 := by
    have hlen := congrArg List.length hs
    rw [ReaderState.kinds, List.length_map, List.length_append] at hlen
    have hle := length_le_nameKinds (n :: ns)
    rw [List.length_cons] at hle
    omega
  have hcons : nameKinds (n :: ns) ++ rest = .word n :: ((nameKinds (n :: ns)).tail ++ rest) := by
    rcases ns with _ | ⟨m, ns⟩ <;> rfl
  rw [hcons]
  refine (termName_word.bind fun a ha =>
    (afterComma_names h hfuel).bind (D := True) (Q := (· = n :: ns)) ?_).congr ?_
  · rintro _ rfl
    exact .pure (by rw [ha])
  · simp

/-- **Names in parentheses** can be read if there are any. -/
theorem parens_names {ns : List String} :
    Reads (parens (commaList termName)) (.symbol "(" :: (nameKinds ns ++ .symbol ")" :: ks)) ks
      (ns ≠ [] ∧ ∀ m ∈ ns, IsTermName m) (· = ns) := by
  rcases ns with _ | ⟨n, ns⟩
  · have hnone : Fails (commaList termName) (.symbol ")" :: ks) := .bind_get fun s hs => termName_symbol.bind
    exact Reads.congr (C := False) (of_fails (symbol_pos.bind_fails fun _ _ => hnone.bind)) (by simp)
  · refine (symbol_pos.bind fun _ _ => (commaList_names (by simp)).bind fun a ha =>
      symbol_pos.bind fun _ _ => .pure (P := (· = n :: ns)) ha).congr ?_
    simp

theorem parens_name : Reads (parens name) (.symbol "(" :: .word w :: .symbol ")" :: ks) ks
    (Keyword.isReserved w = false) (· = w) := by
  refine (symbol_pos.bind fun _ _ => name_word.bind fun a ha =>
    symbol_pos.bind fun _ _ => .pure (P := (· = w)) ha).congr ?_
  simp

/-! ## Types -/

/-- Tokens that a type does not go on with: no name, and no size. -/
structure EndsType (ks : List TokenKind) : Prop where
  not_name : ∀ t : Token, t.kind ∈ ks.head? → nameOf? t = none
  not_size : .symbol "(" ∉ ks.head?

theorem typeWords_nil {fuel : Nat} (h : EndsType ks) : Reads (typeWords (fuel + 1)) ks ks True (· = []) := by
  rintro ⟨ts, n⟩ hs
  refine ⟨fun _ => ⟨[], ⟨ts, n⟩, ?_, hs, rfl, rfl⟩, fun hn => absurd trivial hn⟩
  rcases ts with _ | ⟨t, ts⟩
  · rfl
  · have hkind : t.kind ∈ ks.head? := by
      rw [← hs]
      rfl
    simp [typeWords, run_bind, run_get, h.not_name t hkind, run_pure]

theorem typeWords_word {fuel : Nat} (hw : Keyword.isReserved w = false) (h : EndsType ks) :
    Reads (typeWords (fuel + 2)) (.word w :: ks) ks True (· = [w]) := by
  have hnil : Reads (typeWords (fuel + 1)) ks ks True (· = []) := typeWords_nil h
  rintro ⟨ts, n⟩ hs
  obtain ⟨⟨_, spelling, gap⟩, ts, rfl, rfl, rfl⟩ := List.map_eq_cons_iff.1 hs
  have hname : nameOf? ⟨.word w, spelling, gap⟩ = some w := by simp [nameOf?, hw]
  obtain ⟨words, s', hwords, hkinds, hcount, rfl⟩ := (hnil ⟨ts, n⟩ rfl).1 trivial
  refine ⟨fun _ => ⟨[w], s', ?_, hkinds, hcount, rfl⟩, fun hn => absurd trivial hn⟩
  rw [typeWords, run_bind, run_get]
  simp [hname, run_bind, run_map, run_modify, hwords]

/-- A type of one word. -/
theorem typeName_word (hw : Keyword.isReserved w = false) (h : EndsType ks) :
    Reads typeName (.word w :: ks) ks True (· = w) := by
  refine bind_get fun s hs => ?_
  obtain ⟨n, hn⟩ : ∃ n, s.tokens.length + 1 = n + 2 := by
    have hlen := congrArg List.length hs
    rw [ReaderState.kinds, List.length_map, List.length_cons] at hlen
    exact ⟨ks.length, by omega⟩
  rw [hn]
  refine ((typeWords_word hw h).bind (D := True) (Q := (· = w)) ?_).congr (by simp)
  rintro _ rfl
  refine (symbol?_neg h.not_size).passed (.pure ?_)
  exact String.intercalate_singleton

/-! ## Chains -/

variable {more : α → SqlReader (Option α)} {a : α} {fuel : Nat}

/-- A chain ends where there is no more of it. -/
theorem extend_none (h : Reads (more a) ks ks True (· = none)) (ha : P a) :
    Reads (extend more (fuel + 1) a) ks ks True P := by
  refine (h.bind (D := True) (Q := P) ?_).congr (by simp)
  rintro _ rfl
  exact .pure ha

/-- A chain goes on with what is next. -/
theorem extend_some (h : Reads (more a) ks rest C fun o => ∃ b, o = some b ∧ P b)
    (hrest : ∀ b, P b → Reads (extend more fuel b) rest rest' D R) :
    Reads (extend more (fuel + 1) a) ks rest' (C ∧ D) R := by
  refine h.bind ?_
  rintro _ ⟨b, rfl, hb⟩
  exact hrest b hb

/-! ## Literals -/

theorem number_literal {v : Value} (hv : IsNumber v) : Reads number (.literal v :: ks) ks True (· = v) := by
  rintro ⟨ts, n⟩ hs
  obtain ⟨⟨_, spelling, gap⟩, ts, rfl, rfl, rfl⟩ := List.map_eq_cons_iff.1 hs
  refine ⟨fun _ => ⟨v, ⟨ts, n⟩, ?_, rfl, rfl, rfl⟩, fun hn => absurd trivial hn⟩
  rcases hv with ⟨m, rfl⟩ | ⟨x, rfl⟩ <;> rfl

theorem negative_literal {v : Value} (hv : IsNumber v) :
    Reads negative (.literal v :: ks) ks True fun _ => True :=
  bind_get fun _ _ => ((number_literal hv).bind fun _ _ => .pure trivial).congr (by simp)

theorem defaultValue_literal {v : Value} : Reads defaultValue (.literal v :: ks) ks True (· = v) := by
  refine (symbol?_neg (by simp)).passed ((symbol?_neg (by simp)).passed ?_)
  rintro ⟨ts, n⟩ hs
  obtain ⟨⟨_, spelling, gap⟩, ts, rfl, rfl, rfl⟩ := List.map_eq_cons_iff.1 hs
  exact ⟨fun _ => ⟨v, ⟨ts, n⟩, rfl, rfl, rfl, rfl⟩, fun hn => absurd trivial hn⟩

theorem defaultValue_negative {v : Value} (hv : IsNumber v) :
    Reads defaultValue (.symbol "-" :: .literal v :: ks) ks True fun _ => True :=
  symbol?_pos.taken (negative_literal hv)

end Reads

end SqlReader

end TypedTables

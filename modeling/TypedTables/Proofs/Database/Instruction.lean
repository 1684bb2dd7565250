import TypedTables.Proofs.Database.Reading
/-!
# TypedTables — the instruction of a text

From the tokens of a text to the instruction that the engine finds in it: what
a reader does on their kinds is what the engine makes of the text.
-/

namespace TypedTables

namespace Instruction

open Token (Spells)
open SqlReader (Reads Gives)

variable {ts : List Token} {ks : List TokenKind} {C : Prop} {P : Instruction → Prop} {text : String}

/-- **Tokens that are one statement** are read as its instruction, or not at
all. They have no placeholders. -/
theorem ofTokens?_of_reads (hk : ts.map (·.kind) = ks) (h : Reads SqlReader.instruction ks [] C P) :
    (C → ∃ i, ofTokens? ts = some (i, 0) ∧ P i) ∧ (¬C → ofTokens? ts = none) := by
  obtain ⟨hok, hfail⟩ := h { tokens := ts } hk
  unfold ofTokens?
  constructor
  · intro hC
    obtain ⟨i, s, hrun, hempty, hcount, hi⟩ := hok hC
    have hnone : s.tokens = [] := List.map_eq_nil_iff.1 hempty
    refine ⟨i, ?_, hi⟩
    simp only [StateT.run, hrun, Option.bind_eq_bind, Option.bind_some, hnone, List.all_nil, if_true, hcount]
    rfl
  · intro hC
    simp only [StateT.run, hfail hC, Option.bind_eq_bind, Option.bind_none]

/-- A text that is one statement. -/
theorem ofText?_of_reads (hs : Spells text.toList (some ks)) (h : Reads SqlReader.instruction ks [] C P)
    (hC : C) : ∃ i, ofText? text = some (i, 0) ∧ P i := by
  obtain ⟨ts, hts, hk⟩ := Option.map_eq_some_iff.1 (Token.kinds_of_spells hs)
  rw [ofText?, hts]
  exact (ofTokens?_of_reads hk h).1 hC

/-! ## Scripts -/

theorem split_of_all (h : ∀ t ∈ ts, isEnd t = false) : split ts = [ts] := by
  induction ts with
  | nil => rfl
  | cons t ts ih =>
    rw [split, h t List.mem_cons_self, ih fun u hu => h u (List.mem_cons_of_mem t hu)]
    rfl

/-- The tokens of a script that is one statement are read as a whole. -/
theorem exists_listOfText?_eq (hs : Spells text.toList (some ks)) (hne : ks ≠ []) (hend : .symbol ";" ∉ ks) :
    ∃ ts : List Token, ts.map (·.kind) = ks ∧ listOfText? text = (ofTokens? ts).bind fun p => some [p.1] := by
  obtain ⟨ts, hts, hk⟩ := Option.map_eq_some_iff.1 (Token.kinds_of_spells hs)
  have hsplit : split ts = [ts] := by
    refine split_of_all fun t ht => beq_eq_false_iff_ne.2 fun he => hend ?_
    rw [← hk, ← he]
    exact List.mem_map_of_mem ht
  have hnonempty : (!ts.isEmpty) = true := by
    rcases ts with _ | ⟨t, ts⟩
    · exact absurd hk.symm hne
    · rfl
  refine ⟨ts, hk, ?_⟩
  unfold listOfText?
  rw [hts]
  simp only [Option.bind_eq_bind, Option.bind_some, hsplit, List.filter_cons, hnonempty, if_true,
    List.filter_nil, List.mapM_cons, List.mapM_nil]
  rcases ofTokens? ts with _ | p <;> rfl

/-- **A script that is one statement** is read as its instruction, or not at all. -/
theorem listOfText?_of_reads (hs : Spells text.toList (some ks)) (hne : ks ≠ []) (hend : .symbol ";" ∉ ks)
    (h : Reads SqlReader.instruction ks [] C P) :
    (C → ∃ i, listOfText? text = some [i] ∧ P i) ∧ (¬C → listOfText? text = none) := by
  obtain ⟨ts, hk, hlist⟩ := exists_listOfText?_eq hs hne hend
  obtain ⟨hok, hfail⟩ := ofTokens?_of_reads hk h
  constructor
  · intro hC
    obtain ⟨i, hi, hp⟩ := hok hC
    rw [hlist, hi]
    exact ⟨i, rfl, hp⟩
  · intro hC
    rw [hlist, hfail hC]
    rfl

/-- What is found in a script that is one statement is what is given for it. -/
theorem of_listOfText? (hs : Spells text.toList (some ks)) (hne : ks ≠ []) (hend : .symbol ";" ∉ ks)
    (hgives : Gives SqlReader.instruction ks P) {instructions : List Instruction}
    (h : listOfText? text = some instructions) : ∃ i, instructions = [i] ∧ P i := by
  obtain ⟨ts, hk, hlist⟩ := exists_listOfText?_eq hs hne hend
  rw [hlist] at h
  obtain ⟨⟨i, n⟩, hread, hlisted⟩ := Option.bind_eq_some_iff.1 h
  obtain rfl := Option.some.inj hlisted
  obtain ⟨⟨j, s⟩, hrun, hrest⟩ := Option.bind_eq_some_iff.1 hread
  dsimp only at hrest
  split at hrest
  · obtain ⟨rfl, -⟩ := Prod.mk.inj (Option.some.inj hrest)
    exact ⟨j, rfl, hgives { tokens := ts } j s hk hrun⟩
  · cases hrest

/-- A text without tokens has no instructions. -/
theorem listOfText?_of_unreadable (hs : Spells text.toList none) : listOfText? text = none := by
  have hnone : Token.ofText? text = none := by simpa using Token.kinds_of_spells hs
  unfold listOfText?
  rw [hnone]
  rfl

end Instruction

end TypedTables

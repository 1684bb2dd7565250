import Mathlib.Data.List.Basic
import TypedTables.Proofs.Text.Quoted
/-!
# TypedTables — lines of code

Code that never goes out further than where it started has the same lines at
every level, each indented. If nothing in it breaks a line, these are the lines of
its text, so the text can be embedded where the code would be run. Code of single
lines and blocks alone comes back to the level it started from.
-/

namespace TypedTables

namespace Code

variable {code body : Code} {step : CodeStep} {head t : String} {level after : Nat}

/-- The lines of some steps at the outermost level. -/
def lines (code : Code) : List String := (run 0 code).1

theorem run_nil (level : Nat) : run level [] = ([], level) := rfl

theorem run_cons (level : Nat) (step : CodeStep) (code : Code) : run level (step :: code) =
    ((runStep level step).1 ++ (run (runStep level step).2 code).1, (run (runStep level step).2 code).2) := rfl

theorem run_append (level : Nat) (first second : Code) : run level (first ++ second) =
    ((run level first).1 ++ (run (run level first).2 second).1, (run (run level first).2 second).2) := by
  induction first generalizing level with
  | nil => rfl
  | cons step first ih => simp only [List.cons_append, run_cons, ih, List.append_assoc]

/-! ## Indentation -/

@[simp]
theorem indentLine_zero (t : String) : indentLine 0 t = t := by
  have hnone : indentation 0 = "" := rfl
  unfold indentLine
  split
  case isTrue h => rw [String.isEmpty_iff.1 h]
  case isFalse => rw [hnone, String.empty_append]

theorem indentation_add (a b : Nat) : indentation (a + b) = indentation a ++ indentation b := by
  rw [indentation, indentation, indentation, Nat.mul_add, ← List.replicate_append_replicate,
    String.ofList_append]

theorem indentLine_indentLine (a b : Nat) (t : String) :
    indentLine a (indentLine b t) = indentLine (a + b) t := by
  by_cases ht : t = ""
  · subst ht
    rfl
  · have hne (c : Nat) : (indentation c ++ t).isEmpty = false := by
      simp [ht]
    have hone : t.isEmpty = false := by simp [ht]
    simp [indentLine, hone, hne, indentation_add, String.append_assoc]

/-- A line further in is its text behind four blanks. -/
theorem indentLine_one (ht : t ≠ "") : (indentLine 1 t).toList = [' ', ' ', ' ', ' '] ++ t.toList := by
  have hone : t.isEmpty = false := by simp [ht]
  have hblanks : (indentation 1).toList = [' ', ' ', ' ', ' '] := by decide +kernel
  rw [indentLine, hone, if_neg Bool.false_ne_true, String.toList_append, hblanks]

/-! ## Levels -/

/-- One level out, if there is one. -/
def out? : Nat → Option Nat
  | 0 => none
  | level + 1 => some level

theorem out?_eq_some : out? level = some after ↔ level = after + 1 := by
  cases level <;> simp [out?]

mutual

/-- **The level after a step**, unless it goes out further than there are levels.
The end of a block goes out as well. -/
def levelAfterStep? (level : Nat) : CodeStep → Option Nat
  | .line _ | .blank | .embed _ => some level
  | .indent => some (level + 1)
  | .dedent => out? level
  | .block _ body => (levelAfter? (level + 1) body).bind out?

/-- The level after some steps, unless one of them goes out too far. -/
def levelAfter? (level : Nat) : List CodeStep → Option Nat
  | [] => some level
  | step :: steps => (levelAfterStep? level step).bind fun level => levelAfter? level steps

end

mutual

/-- **Further in, a step has the same lines**, each indented, if it does not go out
too far. The induction is on steps and on lists of them. -/
theorem runStep_further (k : Nat) : ∀ {level after : Nat} (step : CodeStep), levelAfterStep? level step = some after →
    runStep (k + level) step = ((runStep level step).1.map (indentLine k), k + after)
  | level, _, .line text, rfl => by simp [runStep, indentLine_indentLine]
  | _, _, .blank, rfl => rfl
  | level, _, .embed text, rfl => by simp [runStep, Function.comp_def, indentLine_indentLine]
  | _, _, .indent, rfl => rfl
  | level, after, .dedent, h => by
    obtain rfl := out?_eq_some.1 h
    rfl
  | level, after, .block head body, h => by
    obtain ⟨inner, hbody, hout⟩ := Option.bind_eq_some_iff.1 h
    obtain rfl := out?_eq_some.1 hout
    have hfurther := run_further k body hbody
    have hhere := run_further 0 body hbody
    rw [Nat.zero_add] at hhere
    have hlevel : (run (level + 1) body).2 = after + 1 := by rw [hhere, Nat.zero_add]
    rw [← Nat.add_assoc] at hfurther
    simp only [runStep, hfurther, hlevel, ← Nat.add_assoc, Nat.add_sub_cancel]
    simp [indentLine_indentLine]

theorem run_further (k : Nat) : ∀ {level after : Nat} (code : List CodeStep), levelAfter? level code = some after →
    run (k + level) code = ((run level code).1.map (indentLine k), k + after)
  | _, _, [], rfl => rfl
  | level, after, step :: steps, h => by
    obtain ⟨next, hstep, hsteps⟩ := Option.bind_eq_some_iff.1 h
    have hhere := runStep_further 0 step hstep
    rw [Nat.zero_add] at hhere
    have hlevel : (runStep level step).2 = next := by rw [hhere, Nat.zero_add]
    rw [run_cons, run_cons, runStep_further k step hstep, run_further k steps hsteps, hlevel, List.map_append]

end

/-- The level after some steps is where they end, if they can be followed to it. -/
theorem run_snd_of_levelAfter? (h : levelAfter? level code = some after) : (run level code).2 = after := by
  have hhere := run_further 0 code h
  rw [Nat.zero_add] at hhere
  rw [hhere, Nat.zero_add]

/-! ## Lines that stay lines -/

/-- **Whether the text of a step can be read back in lines**: there is no carriage
return in it, and no line break but in a text that is embedded. -/
inductive IsReadable : CodeStep → Prop
  | line {text : String} (h : Text.IsLine text) : IsReadable (.line text)
  | blank : IsReadable .blank
  | embed {text : String} (h : '\r' ∉ text.toList) : IsReadable (.embed text)
  | indent : IsReadable .indent
  | dedent : IsReadable .dedent
  | block {head : String} {body : Code} (hhead : Text.IsLine head) (hbody : ∀ step ∈ body, IsReadable step) :
      IsReadable (.block head body)

theorem isLine_indentLine (h : Text.IsLine t) (level : Nat) : Text.IsLine (indentLine level t) := by
  have hblanks : Text.IsLine (indentation level) := by
    intro c hc
    rw [indentation, String.toList_ofList] at hc
    rw [(List.mem_replicate.1 hc).2]
    decide
  unfold indentLine
  split
  · decide
  · exact Text.isLine_append.2 ⟨hblanks, h⟩

/-- What holds of the lines of each step holds of the lines of them all, at whatever
level each of them comes to be. -/
theorem forall_mem_run {P : String → Prop} (h : ∀ step ∈ code, ∀ level, ∀ l ∈ (runStep level step).1, P l)
    (level : Nat) : ∀ l ∈ (run level code).1, P l := by
  induction code generalizing level with
  | nil => exact List.forall_mem_nil _
  | cons step code ih =>
    intro l hl
    rw [run_cons, List.mem_append] at hl
    rcases hl with hl | hl
    · exact h step List.mem_cons_self level l hl
    · exact ih (fun s hs => h s (List.mem_cons_of_mem step hs)) _ l hl

/-- **What can be read back is written in lines**, by induction on blocks. -/
theorem isLine_of_mem_runStep (h : IsReadable step) (level : Nat) : ∀ l ∈ (runStep level step).1, Text.IsLine l := by
  induction h generalizing level with
  | line h => exact List.forall_mem_singleton.2 (isLine_indentLine h level)
  | blank => exact List.forall_mem_singleton.2 (by decide)
  | embed h =>
    intro l hl
    obtain ⟨t, ht, rfl⟩ := List.mem_map.1 hl
    exact isLine_indentLine (Text.isLine_of_mem_lines h t ht) level
  | indent => exact List.forall_mem_nil _
  | dedent => exact List.forall_mem_nil _
  | block hhead _ ih =>
    refine List.forall_mem_cons.2 ⟨isLine_indentLine (Text.isLine_append.2 ⟨hhead, by decide⟩) level, ?_⟩
    intro l hl
    rcases List.mem_append.1 hl with hl | hl
    · exact forall_mem_run ih _ l hl
    · rw [List.mem_singleton.1 hl]
      exact isLine_indentLine (by decide) _

theorem isLine_of_mem_run (h : ∀ step ∈ code, IsReadable step) (level : Nat) :
    ∀ l ∈ (run level code).1, Text.IsLine l :=
  forall_mem_run (fun step hstep => isLine_of_mem_runStep (h step hstep)) level

/-- **The lines of readable code are those of its text.** -/
theorem lines_text_of_isReadable (h : ∀ step ∈ code, IsReadable step) : Text.lines (text code) = lines code :=
  Text.lines_join (isLine_of_mem_run h 0)

/-! ## Plain code -/

/-- **Whether a step is plain**: a line, a blank line, or a block of plain steps. -/
inductive IsPlain : CodeStep → Prop
  | line {text : String} (h : Text.IsLine text) : IsPlain (.line text)
  | blank : IsPlain .blank
  | block {head : String} {body : Code} (hhead : Text.IsLine head) (hbody : ∀ step ∈ body, IsPlain step) :
      IsPlain (.block head body)

theorem isPlain_block : IsPlain (.block head body) ↔ Text.IsLine head ∧ ∀ step ∈ body, IsPlain step :=
  ⟨fun | .block hhead hbody => ⟨hhead, hbody⟩, fun ⟨hhead, hbody⟩ => .block hhead hbody⟩

theorem IsPlain.isReadable (h : IsPlain step) : IsReadable step := by
  induction h with
  | line h => exact .line h
  | blank => exact .blank
  | block hhead _ ih => exact .block hhead ih

/-- Steps that each come back to the level come back to it together. -/
theorem levelAfter?_of_forall (h : ∀ step ∈ code, levelAfterStep? level step = some level) :
    levelAfter? level code = some level := by
  induction code with
  | nil => rfl
  | cons step code ih =>
    rw [levelAfter?, h step List.mem_cons_self]
    exact ih fun s hs => h s (List.mem_cons_of_mem step hs)

/-- **A plain step comes back to its level**, by induction on its blocks. -/
theorem IsPlain.levelAfterStep? (h : IsPlain step) (level : Nat) : levelAfterStep? level step = some level := by
  induction h generalizing level with
  | line _ => rfl
  | blank => rfl
  | block _ _ ih =>
    rw [Code.levelAfterStep?, levelAfter?_of_forall fun s hs => ih s hs (level + 1)]
    rfl

theorem levelAfter?_of_isPlain (h : ∀ step ∈ code, IsPlain step) (level : Nat) :
    levelAfter? level code = some level :=
  levelAfter?_of_forall fun s hs => (h s hs).levelAfterStep? level

theorem run_snd (h : ∀ step ∈ code, IsPlain step) (level : Nat) : (run level code).2 = level :=
  run_snd_of_levelAfter? (levelAfter?_of_isPlain h level)

/-- Plain steps are written one after the other. -/
theorem run_fst (h : ∀ step ∈ code, IsPlain step) (level : Nat) :
    (run level code).1 = code.flatMap fun step => (runStep level step).1 := by
  induction code with
  | nil => rfl
  | cons step code ih =>
    have hstep := run_snd (List.forall_mem_singleton.2 (h step List.mem_cons_self)) level
    have hlevel : (runStep level step).2 = level := hstep
    rw [run_cons, hlevel, List.flatMap_cons, ih fun s hs => h s (List.mem_cons_of_mem step hs)]

/-- **The lines of a block** are its head, its body one level in, and the brace
that closes it. -/
theorem lines_block (head : String) (hbody : ∀ step ∈ body, IsPlain step) :
    lines [.block head body] = (head ++ " \x7b") :: ((lines body).map (indentLine 1) ++ ["\x7d"]) := by
  have hinner : run 1 body = ((run 0 body).1.map (indentLine 1), 1) :=
    run_further 1 body (levelAfter?_of_isPlain hbody 0)
  simp [lines, run_cons, run_nil, runStep, hinner]

theorem isLine_of_mem_lines (h : ∀ step ∈ code, IsPlain step) : ∀ l ∈ lines code, Text.IsLine l :=
  isLine_of_mem_run (fun step hstep => (h step hstep).isReadable) 0

/-- **The lines of plain code are those of its text.** -/
theorem lines_text (h : ∀ step ∈ code, IsPlain step) : Text.lines (text code) = lines code :=
  lines_text_of_isReadable fun step hstep => (h step hstep).isReadable

/-! ## Embedding -/

/-- The lines that embedding the text of some code writes. -/
theorem run_embed (h : ∀ step ∈ code, IsReadable step) (k : Nat) :
    run k [.embed (text code)] = ((lines code).map (indentLine k), k) := by
  rw [run_cons, run_nil, runStep, lines_text_of_isReadable h, List.append_nil]

/-- Code that goes on with the same lines has the same text. -/
theorem text_append_congr {first second third : Code}
    (h : (run (run 0 first).2 second).1 = (run (run 0 first).2 third).1) :
    text (first ++ second) = text (first ++ third) := by
  rw [text, text, run_append, run_append, h]

end Code

open Code

/-- **Text that is embedded is what its code would have written in place.** Code
that can be read back and never goes out further than where it started has the same
lines at every level as its text has when it is embedded there, and goes in as far
as it does from the outermost level. So it may be replaced by its text behind any
other code, and at the outermost level the text is embedded as it is. -/
theorem embedded_text_is_in_place {code : Code} {net : Nat} (hreadable : ∀ step ∈ code, IsReadable step)
    (hnet : levelAfter? 0 code = some net) :
    (∀ k, run k code = ((run k [.embed (text code)]).1, k + net)) ∧
      (∀ before : Code, text (before ++ code) = text (before ++ [.embed (text code)])) ∧
      text [.embed (text code)] = text code := by
  have hplace : ∀ k, run k code = ((run k [.embed (text code)]).1, k + net) := by
    intro k
    rw [run_embed hreadable]
    exact run_further k code hnet
  have hbehind : ∀ before : Code, text (before ++ code) = text (before ++ [.embed (text code)]) := by
    intro before
    refine text_append_congr ?_
    rw [hplace]
  exact ⟨hplace, hbehind, (hbehind []).symm⟩

/-- Code whose block goes out to its own level and in again, and which ends one
level further in than it starts. -/
def uneven : Code :=
  [.line "first", .block "mod inner" [.embed "x\n\n  y", .dedent, .line "out", .indent, .line ""], .indent,
    .line "last"]

theorem embedded_text_is_in_place_uneven :
    (∀ step ∈ uneven, IsReadable step) ∧ levelAfter? 0 uneven = some 1 ∧
      run 1 uneven = ((run 1 [.embed (text uneven)]).1, 2) ∧
      (run 1 uneven).1 = ["    first", "    mod inner \x7b", "        x", "", "          y", "    out", "", "    \x7d",
        "        last"] := by
  have hreadable : ∀ step ∈ uneven, IsReadable step := by
    have hbody : ∀ step ∈ ([.embed "x\n\n  y", .dedent, .line "out", .indent, .line ""] : Code), IsReadable step := by
      simp only [List.forall_mem_cons]
      exact ⟨.embed (by decide), .dedent, .line (by decide), .indent, .line (by decide), List.forall_mem_nil _⟩
    simp only [uneven, List.forall_mem_cons]
    exact ⟨.line (by decide), .block (by decide) hbody, .indent, .line (by decide), List.forall_mem_nil _⟩
  have hnet : levelAfter? 0 uneven = some 1 := rfl
  exact ⟨hreadable, hnet, (embedded_text_is_in_place hreadable hnet).1 1, by decide +kernel⟩

end TypedTables

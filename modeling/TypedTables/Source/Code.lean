import TypedTables.Text.Blank
/-!
# TypedTables — source code

Source text is written as a list of steps: lines, blocks in braces, and
text that was rendered before. Each line is indented by the level it is
written at; an empty line carries no indentation. `Code.run` gives the lines
of some steps and the level after them.
-/

namespace TypedTables

/-- A step in writing source text. -/
inductive CodeStep
  | line (text : String)
  | blank
  /-- Rendered text, whose lines are indented further. -/
  | embed (text : String)
  | indent
  /-- One level out; at the outermost level nothing. -/
  | dedent
  /-- A head with a body in braces, one level further in. -/
  | block (head : String) (body : List CodeStep)
deriving Repr, Inhabited

/-- Source text by the steps that write it. -/
abbrev Code := List CodeStep

namespace Code

/-- The blanks of a level. -/
def indentation (level : Nat) : String := String.ofList (List.replicate (4 * level) ' ')

/-- A line at a level. -/
def indentLine (level : Nat) (text : String) : String :=
  if text.isEmpty then "" else indentation level ++ text

mutual

/-- The lines of a step at a level, and the level after it. -/
def runStep (level : Nat) : CodeStep → List String × Nat
  | .line text => ([indentLine level text], level)
  | .blank => ([""], level)
  | .embed text => ((Text.lines text).map (indentLine level), level)
  | .indent => ([], level + 1)
  | .dedent => ([], level - 1)
  | .block head body =>
    let (inner, after) := run (level + 1) body
    let outer := after - 1
    (indentLine level (head ++ " \x7b") :: (inner ++ [indentLine outer "\x7d"]), outer)

/-- The lines of some steps from a level on, and the level after them. -/
def run (level : Nat) : List CodeStep → List String × Nat
  | [] => ([], level)
  | step :: steps =>
    let (first, level) := runStep level step
    let (rest, level) := run level steps
    (first ++ rest, level)

end

/-- Lines as text, each with its break. -/
def join (lines : List String) : String := String.join (lines.map (· ++ "\n"))

/-- The text of some steps. -/
def text (code : Code) : String := join (run 0 code).1

end Code

end TypedTables

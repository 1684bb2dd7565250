import TypedTables.Extraction.Error
/-!
# TypedTables — findings

Extraction looks for every error and not only for the first, so its parts
answer with the errors they found beside the result they came to. A part
that has no result has said why, or stands for something that did.
-/

namespace TypedTables

/-- Errors in the order in which they were found, and a result. -/
structure Findings (α : Type) where
  errors : List ExtractionError
  result : α
deriving Repr

namespace Findings

variable {α β : Type}

/-- A result without errors. -/
def clean (result : α) : Findings α := ⟨[], result⟩

/-- The findings of all members of a list, first to last. -/
def collect (f : α → Findings β) (xs : List α) : Findings (List β) :=
  ⟨xs.flatMap fun x => (f x).errors, xs.map fun x => (f x).result⟩

/-- The results that are there, of all members of a list. -/
def collectSome (f : α → Findings (Option β)) (xs : List α) : Findings (List β) :=
  ⟨xs.flatMap fun x => (f x).errors, xs.filterMap fun x => (f x).result⟩

/-- One error and no result. -/
def fail (e : ExtractionError) : Findings (Option α) := ⟨[e], none⟩

/-- The result of a part that can only find one error. -/
def ofExcept : Except ExtractionError α → Findings (Option α)
  | .ok a => clean (some a)
  | .error e => fail e

end Findings

namespace Extraction

/-- The error for a condition that does not hold. -/
def errorUnless (holds : Bool) (e : ExtractionError) : List ExtractionError := if holds then [] else [e]

/-- The members of a list whose key an earlier one has already. -/
def repeated {α κ : Type} [BEq κ] (key : α → κ) (seen : List κ) : List α → List α
  | [] => []
  | x :: xs =>
    if seen.contains (key x) then x :: repeated key seen xs else repeated key (key x :: seen) xs

/-- The members of a list that are the first of their key. -/
def firsts {α κ : Type} [BEq κ] (key : α → κ) (seen : List κ) : List α → List α
  | [] => []
  | x :: xs =>
    if seen.contains (key x) then firsts key seen xs else x :: firsts key (key x :: seen) xs

/-- Members of a list that share a key with an earlier one, each behind the
last such one. -/
def collisions {α κ : Type} [BEq κ] (key : α → κ) (passed : List α) : List α → List (α × α)
  | [] => []
  | x :: xs =>
    match passed.find? fun y => key y == key x with
    | some y => (y, x) :: collisions key (x :: passed) xs
    | none => collisions key (x :: passed) xs

end Extraction

end TypedTables

import TypedTables.Proofs.Query.Request
/-!
# TypedTables — flaws in clauses

A clause is a tree of conditions, and what is wrong with one of them can be seen
without the others: a column without a name, a value that is missing or of a
kind that conditions do not take, a list or a group without members. Compiling
comes upon the conditions from left to right, each before those inside it, and
stops at the first flaw; it succeeds where there is none.
-/

namespace TypedTables

variable {α β : Type}

namespace Clause

/-! ## What can be wrong -/

/-- A column has to have a name. -/
def columnFlaws (column : String) : List ClauseError := if Text.allBlank column then [.emptyColumn] else []

/-- Columns are not compared with blobs. -/
def blobFlaws (column : String) : Value → List ClauseError
  | .blob _ => [.unsupportedValue column .blob]
  | _ => []

/-- **What is wrong with a condition by itself**, in the order in which it is
looked for: columns, then values that are missing, then blobs. Raw text has
nothing to look at. -/
def flaws : Clause → List ClauseError
  | compare column op value =>
    columnFlaws column ++
      (if value = .null ∧ op ≠ .equal ∧ op ≠ .notEqual then [.nullComparison column op] else []) ++
      blobFlaws column value
  | isIn column values =>
    columnFlaws column ++ (if values = [] then [.emptyInList column] else []) ++
      values.flatMap (blobFlaws column)
  | between column low high _ =>
    columnFlaws column ++ (if low = .null ∨ high = .null then [.nullBound column] else []) ++
      blobFlaws column low ++ blobFlaws column high
  | columns left right => columnFlaws left ++ columnFlaws right
  | not _ => []
  | group connective children => if children = [] then [.emptyGroup connective] else []
  | raw _ _ => []

mutual

/-- The conditions in a clause from left to right, each before those inside it. -/
def nodes : Clause → List Clause
  | not clause => .not clause :: clause.nodes
  | group connective children => .group connective children :: nodesOf children
  | c => [c]

/-- The conditions in several clauses. -/
def nodesOf : List Clause → List Clause
  | [] => []
  | c :: cs => c.nodes ++ nodesOf cs

end

/-- **A condition is defective** if something is wrong with it. -/
def IsDefective (c : Clause) : Prop := c.flaws ≠ []

end Clause

/-! ## Steps that find the first flaw -/

/-- **A step fails with the first of some flaws**, and succeeds where there is
none. -/
def FindsFirst (x : Except ClauseError α) : List ClauseError → Prop
  | [] => ∃ a, x = .ok a
  | fault :: _ => x = .error fault

namespace FindsFirst

variable {x : Except ClauseError α} {f : α → Except ClauseError β} {es es' : List ClauseError}

theorem pure (a : α) : FindsFirst (Pure.pure a) [] := ⟨a, rfl⟩

/-- What is looked at later counts only where nothing was found before. -/
theorem bind (hx : FindsFirst x es) (hf : ∀ a, FindsFirst (f a) es') : FindsFirst (x >>= f) (es ++ es') := by
  cases es with
  | nil =>
    obtain ⟨a, rfl⟩ := hx
    exact hf a
  | cons fault es =>
    obtain rfl : x = .error fault := hx
    exact rfl

theorem map (hx : FindsFirst x es) (f : α → β) : FindsFirst (f <$> x) es := by
  have h := hx.bind fun a => FindsFirst.pure (f a)
  rwa [List.append_nil] at h

theorem ok_iff (hx : FindsFirst x es) : (∃ a, x = .ok a) ↔ es = [] := by
  cases es with
  | nil => exact iff_of_true hx rfl
  | cons fault es =>
    obtain rfl : x = .error fault := hx
    exact iff_of_false nofun nofun

theorem error_iff (hx : FindsFirst x es) {fault : ClauseError} : x = .error fault ↔ es.head? = some fault := by
  cases es with
  | nil =>
    obtain ⟨a, rfl⟩ := hx
    exact iff_of_false nofun nofun
  | cons first es =>
    obtain rfl : x = .error first := hx
    rw [List.head?_cons, Option.some.injEq, Except.error.injEq]

end FindsFirst

namespace Clause

/-! ## One condition -/

theorem findsFirst_checkColumn (column : String) : FindsFirst (checkColumn column) (columnFlaws column) := by
  unfold checkColumn columnFlaws
  split
  · exact rfl
  · exact ⟨(), rfl⟩

theorem findsFirst_checkValue (column : String) (value : Value) :
    FindsFirst (checkValue column value) (blobFlaws column value) := by
  cases value with
  | blob _ => exact rfl
  | _ => exact ⟨(), rfl⟩

theorem findsFirst_checkValues (column : String) (values : List Value) :
    FindsFirst (checkValues column values) (values.flatMap (blobFlaws column)) := by
  induction values with
  | nil => exact ⟨(), rfl⟩
  | cons value values ih => exact (findsFirst_checkValue column value).bind fun _ => ih

theorem isNull_iff {value : Value} : value.isNull = true ↔ value = .null := by
  cases value <;> simp [Value.isNull]

theorem findsFirst_compileCompare (column : String) (op : Operator) (value : Value) :
    FindsFirst (compileCompare column op value) (compare column op value).flaws := by
  unfold compileCompare
  rw [flaws, List.append_assoc]
  refine (findsFirst_checkColumn column).bind fun _ => ?_
  by_cases hnull : value = .null
  · -- only equality with nothing, and its negation, can be asked for
    subst hnull
    cases op with
    | equal => exact ⟨_, rfl⟩
    | notEqual => exact ⟨_, rfl⟩
    | _ => exact rfl
  · rw [if_neg (mt isNull_iff.1 hnull), if_neg fun h => hnull h.1, List.nil_append]
    exact (findsFirst_checkValue column value).map _

theorem findsFirst_compileIn (column : String) (values : List Value) :
    FindsFirst (compileIn column values) (isIn column values).flaws := by
  rw [compileIn, flaws, List.append_assoc]
  refine (findsFirst_checkColumn column).bind fun _ => ?_
  rcases values with _ | ⟨value, values⟩
  · exact rfl
  · exact (findsFirst_checkValues column (value :: values)).map _

theorem findsFirst_compileBetween (column : String) (low high : Value) (negated : Bool) :
    FindsFirst (compileBetween column low high negated) (between column low high negated).flaws := by
  rw [compileBetween, flaws, List.append_assoc, List.append_assoc]
  refine (findsFirst_checkColumn column).bind fun _ => ?_
  have hbound : (low.isNull || high.isNull) = true ↔ low = .null ∨ high = .null := by
    rw [Bool.or_eq_true, isNull_iff, isNull_iff]
  by_cases hnull : low = .null ∨ high = .null
  · rw [if_pos (hbound.2 hnull), if_pos hnull]
    exact rfl
  · rw [if_neg (mt hbound.1 hnull), if_neg hnull]
    exact (findsFirst_checkValue column low).bind fun _ => (findsFirst_checkValue column high).map _

theorem findsFirst_compileColumns (left right : String) :
    FindsFirst (compileColumns left right) (columns left right).flaws :=
  (findsFirst_checkColumn left).bind fun _ => (findsFirst_checkColumn right).map _

/-! ## Whole clauses -/

mutual

/-- **Compiling finds the first flaw of a clause**, by induction on the clause. -/
theorem findsFirst_compile : ∀ c : Clause, FindsFirst c.compile (c.nodes.flatMap flaws)
  | compare column op value => by
    simpa [nodes, compile] using findsFirst_compileCompare column op value
  | isIn column values => by
    simpa [nodes, compile] using findsFirst_compileIn column values
  | between column low high negated => by
    simpa [nodes, compile] using findsFirst_compileBetween column low high negated
  | columns left right => by
    simpa [nodes, compile] using findsFirst_compileColumns left right
  | .not c => (findsFirst_compile c).map _
  | group connective [] => rfl
  | group connective [only] => by
    -- a group of one member says what the member says, and nothing is wrong with it
    have honly := findsFirst_compile only
    simpa [nodes, nodesOf, flaws, compile] using honly
  | group connective (first :: second :: rest) => by
    have hmembers := findsFirst_compileMembers (first :: second :: rest)
    rw [compile]
    exact hmembers.map _
  | raw sql args => ⟨_, rfl⟩

/-- The members of a group are looked at one after the other. -/
theorem findsFirst_compileMembers : ∀ cs : List Clause, FindsFirst (compileMembers cs) ((nodesOf cs).flatMap flaws)
  | [] => ⟨_, rfl⟩
  | c :: cs => by
    rw [nodesOf, List.flatMap_append]
    exact (findsFirst_compile c).bind fun part => (findsFirst_compileMembers cs).map _

end

/-- Several conditions fail as the first of them that does. -/
theorem failsAs_compileMembers (cs : List Clause) : FailsAs (compileMembers cs) cs := by
  induction cs with
  | nil => exact .pure []
  | cons c cs ih => exact c.failsAs_compile.bind fun part => ih.map _

theorem failsAs_compileAll (cs : List Clause) : FailsAs (compileAll cs) cs := by
  rcases cs with _ | ⟨c, _ | ⟨d, rest⟩⟩
  · exact .pure Sql.empty
  · exact c.failsAs_compile
  · exact (failsAs_compileMembers (c :: d :: rest)).map _

/-- **Compiling fails just at flaws, and with the first one.** A clause compiles
just if none of its conditions is defective; otherwise the fault is the first
flaw of the first one that is. Of several clauses all have to compile, and the
fault is that of the first one that does not. -/
theorem compile_fails_at_first_flaw :
    (∀ c : Clause, (c.Compiles ↔ ∀ n ∈ c.nodes, ¬ n.IsDefective) ∧
      ∀ fault, c.compile = .error fault ↔ ∃ before n after, c.nodes = before ++ n :: after ∧
        n.flaws.head? = some fault ∧ ∀ b ∈ before, ¬ b.IsDefective) ∧
    ∀ cs : List Clause, ((∃ s, compileAll cs = .ok s) ↔ ∀ c ∈ cs, c.Compiles) ∧
      ∀ fault, compileAll cs = .error fault ↔ FirstFault cs fault := by
  refine ⟨fun c => ⟨?_, fun fault => ?_⟩, fun cs => ⟨(failsAs_compileAll cs).ok_iff, fun fault =>
    (failsAs_compileAll cs).error_iff⟩⟩
  · have hok := (findsFirst_compile c).ok_iff
    rw [List.flatMap_eq_nil_iff] at hok
    simpa [IsDefective, Compiles] using hok
  · rw [(findsFirst_compile c).error_iff, List.head?_flatMap, List.findSome?_eq_some_iff]
    simp [IsDefective]

end Clause

end TypedTables

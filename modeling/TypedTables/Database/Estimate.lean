/-!
# TypedTables — estimates

How many rows a search will meet, and what it will cost, are only ever
estimated. An estimate is ten times the logarithm to the base two of what
it stands for, rounded, so that the estimate of a product is the sum of the
estimates.
-/

namespace TypedTables

/-- Ten times the logarithm to the base two of a number. -/
abbrev Estimate := Int

namespace Estimate

/-- The estimate of a number. The three bits after its highest one are all
that counts. -/
def ofNat (n : Nat) : Estimate :=
  let eighths := n * 8 / Nat.pow 2 n.log2 % 8
  if n < 2 then 0 else 10 * (n.log2 : Int) + (([0, 2, 3, 5, 6, 7, 8, 9].getD eighths 0 : Nat) : Int)

/-- What the smaller of two numbers adds to the estimate of the larger, given
the difference of their estimates. -/
def surplus (difference : Nat) : Estimate :=
  let reach := [1, 3, 5, 8, 11, 14, 18, 24, 31, 49]
  ((reach.filter fun d => difference ≤ d).length : Nat)

/-- The estimate of the sum of two numbers. -/
def sum (a b : Estimate) : Estimate := max a b + surplus (a - b).natAbs

/-- The estimate of the steps that it takes to find one among many. -/
def steps (many : Estimate) : Estimate := if many ≤ 10 then 0 else ofNat many.toNat - 33

/-- The rows of a table, about a million, as nothing is known of them. -/
def ofTable : Estimate := 200

end Estimate

end TypedTables

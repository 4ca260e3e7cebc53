/-
  Classes of code points given by ranges.

  A table lists ranges by their first and last number, in ascending order, so the search for
  a number stops at the first range that begins beyond it.
-/
import TraitCatalog.Text.Basic

namespace TraitCatalog

/-- Ranges of numbers in ascending order, both ends included. -/
abbrev RangeTable := List (Nat × Nat)

namespace RangeTable

/-- A number lies in one of the ranges. -/
def contains : RangeTable → Nat → Bool
  | [], _ => false
  | (lo, hi) :: rest, n => lo ≤ n && (n ≤ hi || contains rest n)

/-- The ranges ascend and do not touch, the first of them at `from_` or later. -/
def ascends (from_ : Nat) : RangeTable → Bool
  | [] => true
  | (lo, hi) :: rest => from_ ≤ lo && lo ≤ hi && ascends (hi + 2) rest

end RangeTable

end TraitCatalog

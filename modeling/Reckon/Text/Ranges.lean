/-!
# Sets of characters given by code point ranges

A class of characters that a standard fixes is a list of inclusive ranges in
ascending order. `offset?` also says how far into its range a character stands,
which is what the value of a decimal digit is read from.
-/
namespace Reckon.Text

/-- Inclusive ranges of code points, in ascending order and disjoint. -/
abbrev Ranges := List (Nat × Nat)

namespace Ranges

/-- How far behind the first character of its range `c` stands. -/
def offset? (ranges : Ranges) (c : Char) : Option Nat :=
  match ranges.find? fun range => decide (c.toNat ≤ range.2) with
  | some range => if range.1 ≤ c.toNat then some (c.toNat - range.1) else none
  | none => none

/-- Membership: the first range that does not end before `c` has begun by then. -/
def contains (ranges : Ranges) (c : Char) : Bool :=
  (ranges.offset? c).isSome

end Ranges

end Reckon.Text

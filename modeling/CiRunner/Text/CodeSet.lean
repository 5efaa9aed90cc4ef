/-!
# Sets of characters given by their boundaries

A set of code points is written as the increasing list of its boundaries: the first number opens
the set, the second closes it, and so on.  A code point lies in the set exactly when the number of
boundaries at or below it is odd, which `CodeSet.contains` counts.
-/

namespace CiRunner

/-- A set of code points, given by the increasing list of points where membership changes. -/
structure CodeSet where
  /-- The code points at which membership flips. -/
  boundaries : List Nat

namespace CodeSet

/-- A code point is a member when an odd number of boundaries lie at or below it. -/
def contains (set : CodeSet) (code : Nat) : Bool :=
  (set.boundaries.takeWhile (· ≤ code)).length % 2 = 1

/-- Membership of a character is membership of its code point. -/
def containsChar (set : CodeSet) (c : Char) : Bool :=
  set.contains c.toNat

@[simp] theorem contains_nil (code : Nat) : (CodeSet.mk []).contains code = false := rfl

end CodeSet

end CiRunner

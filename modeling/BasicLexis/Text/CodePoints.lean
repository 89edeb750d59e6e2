set_option autoImplicit false

/-! # Sets of code points given by their edges

A property of characters holds on long runs of code points, so a set of them is stored as the
increasing list of the points at which membership changes: the first edge opens the first run, the
second closes it (exclusively), the third opens the next run, and so on. A point is a member when
an odd number of edges lies at or before it. -/

namespace BasicLexis.Text

/-- A set of code points, stored as the increasing points at which membership changes. -/
structure CodePoints where
  /-- The points at which membership changes, in increasing order. -/
  edges : Array Nat

namespace CodePoints

/-- Narrows the interval between `low` and `high` to the number of edges at or before `point`.
    One unit of `fuel` pays for one halving. -/
def search (edges : Array Nat) (point : Nat) : Nat → Nat → Nat → Nat
  | 0, low, _ => low
  | fuel + 1, low, high =>
    if low < high then
      let middle := (low + high) / 2
      if edges.getD middle 0 ≤ point then search edges point fuel (middle + 1) high
      else search edges point fuel low middle
    else low

/-- Membership: an odd number of edges lies at or before the point. -/
def contains (set : CodePoints) (point : Nat) : Bool :=
  search set.edges point set.edges.size 0 set.edges.size % 2 == 1

end CodePoints

end BasicLexis.Text

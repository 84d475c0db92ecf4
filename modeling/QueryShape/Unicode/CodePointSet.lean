namespace QueryShape.Unicode

/-- A set of code points, kept as the increasing list of those at which membership changes.
Everything before the first entry is outside. -/
structure CodePointSet where
  switches : List Nat

namespace CodePointSet

def contains (s : CodePointSet) (c : Char) : Bool :=
  (s.switches.takeWhile (· ≤ c.toNat)).length % 2 == 1

end CodePointSet

end QueryShape.Unicode

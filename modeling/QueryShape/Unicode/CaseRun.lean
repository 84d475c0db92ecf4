namespace QueryShape.Unicode

/-- The code points `first`, `first + step`, …, `last`, each with its other case at distance
`shift`. -/
structure CaseRun where
  first : Nat
  last : Nat
  step : Nat
  shift : Int

namespace CaseRun

/-- What a code becomes, if it is in the run. -/
def map? (r : CaseRun) (n : Nat) : Option Nat :=
  if r.first ≤ n && n ≤ r.last && (n - r.first) % r.step == 0 then
    some (n + r.shift).toNat
  else
    none

end CaseRun

end QueryShape.Unicode

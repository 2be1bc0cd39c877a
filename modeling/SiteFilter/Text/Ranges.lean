/-!
# Sets of code points as ranges

A property of code points is written as a list of closed ranges in ascending order.
-/

namespace SiteFilter

/-- Closed ranges of numbers, ascending and apart. -/
abbrev Ranges := List (Nat × Nat)

namespace Ranges

def has (ranges : Ranges) (n : Nat) : Bool :=
  ranges.any fun (low, high) => low ≤ n && n ≤ high

end Ranges

end SiteFilter

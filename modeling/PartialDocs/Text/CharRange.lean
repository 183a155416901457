/-!
# Sets of characters as ranges

A Unicode property is a table of ranges of code points, each given by its first and
its last one.
-/

set_option autoImplicit false

namespace PartialDocs

/-- Whether a code point lies in one of the ranges, both ends included. -/
def inRanges (ranges : List (Nat × Nat)) (n : Nat) : Bool :=
  ranges.any fun (first, last) => first ≤ n && n ≤ last

end PartialDocs

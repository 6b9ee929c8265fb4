/-!
# Ranges of characters

A class of characters is given as a list of ranges of code points, first and last included.
-/

namespace HeapReplay.Text

/-- Whether a character is in one of the ranges. -/
def inRanges (ranges : List (Nat × Nat)) (c : Char) : Bool :=
  ranges.any fun (first, last) => first ≤ c.toNat && c.toNat ≤ last

end HeapReplay.Text

/-!
# Classes of characters

A class of characters is given by the ranges of code points that it holds.
-/

namespace SocketRanking.Text

/-- Whether one of the ranges, ends included, holds the character. -/
def inRanges (ranges : List (Nat × Nat)) (c : Char) : Bool :=
  ranges.any fun (first, last) => first ≤ c.toNat && c.toNat ≤ last

end SocketRanking.Text

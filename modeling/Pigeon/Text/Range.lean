/-!
# Tables of code points

A class of characters is given by a list of closed intervals of code points.
-/

namespace Pigeon.Text

/-- The code point of `c` lies in one of the closed intervals of the table. -/
def inRanges (table : List (Nat × Nat)) (c : Char) : Bool :=
  table.any fun (first, last) => first ≤ c.toNat && c.toNat ≤ last

end Pigeon.Text

/-! # Sets of characters

A set of characters is given as a list of closed ranges of code points, in ascending order.
-/

namespace XmlRecords

namespace Text

/-- Closed ranges of code points. -/
abbrev Ranges :=
  List (Nat × Nat)

/-- The character lies in one of the ranges. -/
def Ranges.contains (ranges : Ranges) (char : Char) : Bool :=
  ranges.any fun range => decide (range.1 ≤ char.toNat) && decide (char.toNat ≤ range.2)

end Text

end XmlRecords

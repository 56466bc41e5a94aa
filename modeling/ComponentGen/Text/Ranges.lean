/-!
# Ranges of code points

A character class beyond ASCII is written as a list of ranges of code points, both ends
included. This module holds the membership test; the tables stand in the modules of the classes.
-/

namespace ComponentGen.Text

/-- A range of code points, given by its first and its last one. -/
abbrev CodeRange := Nat × Nat

/-- The character lies in one of the ranges. -/
def inRanges (ranges : List CodeRange) (c : Char) : Bool :=
  ranges.any fun range => range.1 ≤ c.toNat && c.toNat ≤ range.2

end ComponentGen.Text
